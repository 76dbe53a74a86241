import ApiModel.Proofs.Retouch
import Mathlib.Data.List.Nodup
import Mathlib.Data.Prod.Lex

/-!
# What samples show

A sampled enumeration names, for each of its numbers, the first value with it, and it shows the values of the
best class that it has.  A sampled one-of shows its most fit member, and of equally fit ones the first among the
fields of the message.

Principal results:

* `firsts_eq_representatives` — the values that are kept are those whose number no earlier value has;
* `examples_eq` — the values that are shown are those of the best class;
* `example?_eq_some_iff` — **the member that is shown** is the least one, ahead of its equals;
* `sampled_enriched` — **enriched models are sampled**, and so is every model that was cross-referenced without
  a defect.
-/

namespace ApiModel

open Outcome

/-! ## Values that stand for their numbers -/

/-- The values whose number no earlier value has, in the order of the values. -/
def Enumeration.representatives (e : Enumeration) : List EnumValue :=
  (e.values.zipIdx.filter fun (v, i) => (e.values.take i).all (·.number != v.number)).map (·.1)

namespace EnumValue

variable {values before : List EnumValue} {seen : List Int} {v : EnumValue}

/-- Behind earlier values whose numbers were seen, the first ones are those with a number that no earlier value
has. -/
theorem firsts_eq (hseen : ∀ n, n ∈ seen ↔ n ∈ before.map (·.number)) :
    firsts seen values = ((values.zipIdx before.length).filter fun (v, i) =>
      ((before ++ values).take i).all (·.number != v.number)).map (·.1) := by
  induction values generalizing before seen with
  | nil => rfl
  | cons v rest ih =>
    have hsplit : before ++ v :: rest = (before ++ [v]) ++ rest := by simp
    have hlength : before.length + 1 = (before ++ [v]).length := by simp
    have htest : ((before ++ v :: rest).take before.length).all (·.number != v.number) = true ↔
        v.number ∉ seen := by
      rw [List.take_left, hseen]
      simp
    rw [List.zipIdx_cons, List.filter_cons, firsts]
    by_cases hv : v.number ∈ seen
    · rw [if_pos hv, if_neg (mt htest.1 (not_not_intro hv)), hlength, hsplit]
      refine ih fun n => ?_
      rw [List.map_append, List.mem_append, ← hseen]
      simp only [List.map_cons, List.map_nil, List.mem_singleton]
      exact ⟨.inl, fun h => h.elim (fun hn => hn) fun hn => hn ▸ hv⟩
    · rw [if_neg hv, if_pos (htest.2 hv), List.map_cons, hlength, hsplit]
      refine congrArg _ (ih fun n => ?_)
      rw [List.mem_cons, List.map_append, List.mem_append, hseen, or_comm]
      simp

theorem firsts_eq_representatives (e : Enumeration) : firsts [] e.values = e.representatives := by
  have hempty : ∀ n : Int, n ∈ [] ↔ n ∈ ([] : List EnumValue).map (·.number) := by simp
  exact firsts_eq hempty

theorem mem_firsts (h : v ∈ values) :
    v.number ∈ seen ∨ v.number ∈ (firsts seen values).map (·.number) := by
  induction values generalizing seen with
  | nil => cases h
  | cons w rest ih =>
    rw [firsts]
    split
    · rename_i hw
      rcases List.mem_cons.1 h with rfl | h
      · exact .inl hw
      · exact ih h
    · rcases List.mem_cons.1 h with rfl | h
      · exact .inr (List.mem_cons_self ..)
      · have hrest : v.number ∈ w.number :: seen ∨ _ := ih h
        rw [List.mem_cons] at hrest
        rw [List.map_cons, List.mem_cons]
        tauto

/-- No number is kept twice, and none that was seen. -/
theorem nodup_firsts (seen : List Int) (values : List EnumValue) :
    ((firsts seen values).map (·.number)).Nodup ∧
      ∀ n ∈ (firsts seen values).map (·.number), n ∉ seen := by
  induction values generalizing seen with
  | nil => simp [firsts]
  | cons v rest ih =>
    rw [firsts]
    split
    · exact ih seen
    · rename_i hv
      obtain ⟨hnodup, hnew⟩ := ih (v.number :: seen)
      refine ⟨List.nodup_cons.2 ⟨fun hmem => hnew _ hmem (List.mem_cons_self ..), hnodup⟩, ?_⟩
      exact List.forall_mem_cons.2 ⟨hv, fun n hn hmem => hnew n hn (List.mem_cons_of_mem _ hmem)⟩

/-! ## Values that are shown -/

/-- The value is of the best class that there is: not zero and not deprecated; if there are none, not zero; if
there are none, any. -/
def IsBest (values : List EnumValue) (v : EnumValue) : Prop :=
  v.number ≠ 0 ∧ v.deprecated = false ∨
    (∀ w ∈ values, w.number ≠ 0 → w.deprecated = true) ∧ v.number ≠ 0 ∨
    ∀ w ∈ values, w.number = 0

instance (values : List EnumValue) (v : EnumValue) : Decidable (v.IsBest values) :=
  inferInstanceAs (Decidable (_ ∨ _ ∨ _))

section Best

variable {w : EnumValue} (hw : w ∈ values) (hnumber : w.number ≠ 0)

include hw hnumber

theorem isBest_iff_of_current (hdeprecated : w.deprecated = false) :
    v.IsBest values ↔ v.number ≠ 0 ∧ v.deprecated = false := by
  refine ⟨?_, .inl⟩
  rintro (h | ⟨hall, -⟩ | hzero)
  · exact h
  · rw [hall w hw hnumber] at hdeprecated
    cases hdeprecated
  · exact absurd (hzero w hw) hnumber

theorem isBest_iff_of_deprecated (hall : ∀ v ∈ values, v.number ≠ 0 → v.deprecated = true) :
    v.IsBest values ↔ v.number ≠ 0 := by
  refine ⟨?_, fun h => .inr (.inl ⟨hall, h⟩)⟩
  rintro (h | h | hzero)
  · exact h.1
  · exact h.2
  · exact absurd (hzero w hw) hnumber

end Best

/-- The values that are shown are those of the best class. -/
theorem examples_eq (values : List EnumValue) :
    examples values = values.filter fun v => v.IsBest values := by
  by_cases hcurrent : ∃ w ∈ values, w.number ≠ 0 ∧ w.deprecated = false
  · obtain ⟨w, hw, hnumber, hdeprecated⟩ := hcurrent
    have hmem : w ∈ (values.filter (·.number != 0)).filter (!·.deprecated) := by
      simp [hw, hnumber, hdeprecated]
    simp only [examples, List.isEmpty_eq_false_iff.2 (List.ne_nil_of_mem hmem), Bool.not_false, if_true,
      isBest_iff_of_current hw hnumber hdeprecated]
    rw [List.filter_filter]
    exact List.filter_congr fun v _ => by simp [and_comm, bne, beq_eq_decide]
  · have hall : ∀ w ∈ values, w.number ≠ 0 → w.deprecated = true := fun w hw hnumber =>
      Bool.of_not_eq_false fun h => hcurrent ⟨w, hw, hnumber, h⟩
    have hnone : (values.filter (·.number != 0)).filter (!·.deprecated) = [] := by
      simp only [List.filter_eq_nil_iff, List.mem_filter, bne_iff_ne, Bool.not_eq_true', and_imp]
      intro v hv hnumber
      simp [hall v hv hnumber]
    by_cases hnonZero : ∃ w ∈ values, w.number ≠ 0
    · obtain ⟨w, hw, hnumber⟩ := hnonZero
      have hmem : w ∈ values.filter (·.number != 0) := by simp [hw, hnumber]
      simp only [examples, hnone, List.isEmpty_nil, Bool.not_true, Bool.false_eq_true, if_false,
        List.isEmpty_eq_false_iff.2 (List.ne_nil_of_mem hmem), Bool.not_false, if_true,
        isBest_iff_of_deprecated hw hnumber hall]
      exact List.filter_congr fun v _ => by simp [bne, beq_eq_decide]
    · have hzero : ∀ w ∈ values, w.number = 0 := fun w hw =>
        Classical.not_not.1 fun h => hnonZero ⟨w, hw, h⟩
      have hempty : values.filter (·.number != 0) = [] := by
        simpa only [List.filter_eq_nil_iff, bne_iff_ne, Classical.not_not] using hzero
      simp only [examples, hempty, List.filter_nil, List.isEmpty_nil, Bool.not_true, Bool.false_eq_true,
        if_false]
      refine (List.filter_eq_self.2 fun v _ => ?_).symm
      exact decide_eq_true (.inr (.inr hzero))

theorem examples_eq_nil_iff : examples values = [] ↔ values = [] := by
  simp only [examples]
  split
  · rename_i h
    simp only [Bool.not_eq_true', List.isEmpty_eq_false_iff] at h
    refine iff_of_false h ?_
    rintro rfl
    exact h rfl
  · split
    · rename_i h
      simp only [Bool.not_eq_true', List.isEmpty_eq_false_iff] at h
      refine iff_of_false h ?_
      rintro rfl
      exact h rfl
    · exact Iff.rfl

end EnumValue

/-- The names that samples of the enumeration show are the right ones. -/
structure Enumeration.Sampled (e : Enumeration) : Prop where
  unique : e.uniqueNumberValues = e.representatives.map (·.name)
  once : ∀ v ∈ e.values, (e.representatives.map (·.number)).count v.number = 1
  examples : e.valuesForExamples = (e.values.filter fun v => v.IsBest e.values).map (·.name)
  empty : e.valuesForExamples = [] ↔ e.values = []

theorem Enumeration.sampled_withSamples (e : Enumeration) : e.withSamples.Sampled where
  unique := congrArg _ (EnumValue.firsts_eq_representatives e)
  once v hv := by
    have hsame : e.withSamples.representatives = EnumValue.firsts [] e.values :=
      (EnumValue.firsts_eq_representatives e).symm
    rw [hsame]
    refine List.count_eq_one_of_mem (EnumValue.nodup_firsts [] e.values).1 ?_
    exact (EnumValue.mem_firsts hv).resolve_left List.not_mem_nil
  examples := congrArg _ (EnumValue.examples_eq e.values)
  empty := List.map_eq_nil_iff.trans EnumValue.examples_eq_nil_iff

/-! ## Members that are shown -/

/-- Members are preferred that are not deprecated, then those that are no maps, then those that are not repeated,
then those that are no messages. -/
def Field.unfitness (f : Field) : Bool ×ₗ Bool ×ₗ Bool ×ₗ Bool :=
  toLex (f.deprecated, toLex (f.isMap, toLex (f.repeated, f.isMessage)))

namespace OneOf

/-- Between the fields ahead of it and those behind it, the field is the least member, ahead of its equals. -/
structure IsExample (o : OneOf) (before : List Field) (f : Field) (after : List Field) : Prop where
  member : f.id ∈ o.fields
  least : ∀ g ∈ after, g.id ∈ o.fields → f.unfitness ≤ g.unfitness
  first : ∀ g ∈ before, g.id ∈ o.fields → f.unfitness < g.unfitness

/-- Ranks are as the lexicographic order has it. -/
theorem rank_le_iff (f g : Field) : rank f ≤ rank g ↔ f.unfitness ≤ g.unfitness := by
  unfold rank Field.unfitness
  generalize f.deprecated = a, f.isMap = b, f.repeated = c, f.isMessage = d
  generalize g.deprecated = a', g.isMap = b', g.repeated = c', g.isMessage = d'
  revert a b c d a' b' c' d'
  decide

theorem rank_lt_iff (f g : Field) : rank f < rank g ↔ f.unfitness < g.unfitness := by
  rw [← Nat.not_le, rank_le_iff, not_le]

end OneOf

/-- The first of the least elements is less than all ahead of it, and no element behind it is less. -/
theorem firstLeast_eq_some_iff {α : Type} {rank : α → Nat} {as : List α} {a : α} :
    firstLeast rank as = some a ↔ ∃ before after, as = before ++ a :: after ∧
      (∀ b ∈ before, rank a < rank b) ∧ ∀ b ∈ after, rank a ≤ rank b := by
  constructor
  · intro h
    induction as generalizing a with
    | nil => cases h
    | cons b rest ih =>
      rw [firstLeast] at h
      split at h
      · rename_i hnone
        obtain rfl := Option.some.inj h
        obtain rfl := firstLeast_eq_none_iff.1 hnone
        exact ⟨[], [], rfl, by simp, by simp⟩
      · rename_i c hc
        split at h
        · rename_i hless
          obtain rfl := Option.some.inj h
          obtain ⟨before, after, rfl, hbefore, hafter⟩ := ih hc
          exact ⟨b :: before, after, rfl, List.forall_mem_cons.2 ⟨hless, hbefore⟩, hafter⟩
        · rename_i hless
          obtain rfl := Option.some.inj h
          obtain ⟨before, after, rfl, hbefore, hafter⟩ := ih hc
          refine ⟨[], _, rfl, by simp, fun d hd => (Nat.not_lt.1 hless).trans ?_⟩
          rcases List.mem_append.1 hd with hd | hd
          · exact Nat.le_of_lt (hbefore d hd)
          · rcases List.mem_cons.1 hd with rfl | hd
            · exact Nat.le_refl _
            · exact hafter d hd
  · rintro ⟨before, after, rfl, hbefore, hafter⟩
    induction before with
    | nil =>
      rw [List.nil_append, firstLeast]
      split
      · rfl
      · rename_i b hb
        rw [if_neg (Nat.not_lt.2 (hafter b (firstLeast_mem hb)))]
    | cons b before ih =>
      obtain ⟨hb, hbefore⟩ := List.forall_mem_cons.1 hbefore
      rw [List.cons_append, firstLeast, ih hbefore]
      exact if_pos hb

namespace OneOf

variable {o : OneOf} {fields : List Field} {f : Field}

/-- The member that is shown is the least one, ahead of its equals. -/
theorem example?_eq_some_iff :
    o.example? fields = some f ↔
      ∃ before after, fields = before ++ f :: after ∧ o.IsExample before f after := by
  unfold example?
  rw [firstLeast_eq_some_iff]
  constructor
  · rintro ⟨before, after, hmembers, hbefore, hafter⟩
    obtain ⟨front, rest, rfl, hfront, hrest⟩ := List.filter_eq_append_iff.1 hmembers
    obtain ⟨between, back, rfl, hbetween, hf, hback⟩ := List.filter_eq_cons_iff.1 hrest
    refine ⟨front ++ between, back, by simp, List.contains_iff_mem.1 hf, ?_, ?_⟩
    · intro g hg hmember
      rw [← rank_le_iff]
      refine hafter g ?_
      rw [← hback]
      exact List.mem_filter.2 ⟨hg, List.contains_iff_mem.2 hmember⟩
    · intro g hg hmember
      rw [← rank_lt_iff]
      rcases List.mem_append.1 hg with hg | hg
      · refine hbefore g ?_
        rw [← hfront]
        exact List.mem_filter.2 ⟨hg, List.contains_iff_mem.2 hmember⟩
      · exact absurd (List.contains_iff_mem.2 hmember) (hbetween g hg)
  · rintro ⟨before, after, rfl, hf, hleast, hfirst⟩
    refine ⟨before.filter (o.fields.contains ·.id), after.filter (o.fields.contains ·.id), ?_, ?_, ?_⟩
    · rw [List.filter_append, List.filter_cons, if_pos (List.contains_iff_mem.2 hf)]
    · intro g hg
      obtain ⟨hg, hmember⟩ := List.mem_filter.1 hg
      exact (rank_lt_iff f g).2 (hfirst g hg (List.contains_iff_mem.1 hmember))
    · intro g hg
      obtain ⟨hg, hmember⟩ := List.mem_filter.1 hg
      exact (rank_le_iff f g).2 (hleast g hg (List.contains_iff_mem.1 hmember))

theorem example?_eq_none_iff : o.example? fields = none ↔ ∀ f ∈ fields, f.id ∉ o.fields := by
  unfold example?
  rw [firstLeast_eq_none_iff, List.filter_eq_nil_iff]
  simp only [List.contains_iff_mem]

/-- The member that samples of the one-of show is the right one. -/
structure Sampled (o : OneOf) (fields : List Field) : Prop where
  missing : o.exampleField = none ↔ ∀ f ∈ fields, f.id ∉ o.fields
  shown : ∀ id, o.exampleField = some id ↔
    ∃ before f after, fields = before ++ f :: after ∧ o.IsExample before f after ∧ f.id = id

end OneOf

/-- Every one-of of the message is sampled. -/
def Message.Sampled (m : Message) : Prop := ∀ o ∈ m.oneOfs, o.Sampled m.fields

theorem Message.sampled_withSamples (m : Message) : m.withSamples.Sampled := by
  intro o ho
  obtain ⟨p, -, rfl⟩ := List.mem_map.1 ho
  refine ⟨?_, fun id => ?_⟩
  · exact Option.map_eq_none_iff.trans OneOf.example?_eq_none_iff
  · refine Option.map_eq_some_iff.trans ?_
    simp only [OneOf.example?_eq_some_iff]
    constructor
    · rintro ⟨f, ⟨before, after, hfields, hf⟩, hid⟩
      exact ⟨before, f, after, hfields, ⟨hf.member, hf.least, hf.first⟩, hid⟩
    · rintro ⟨before, f, after, hfields, hf, hid⟩
      exact ⟨f, ⟨before, after, hfields, ⟨hf.member, hf.least, hf.first⟩⟩, hid⟩

/-! ## Models -/

namespace Api

/-- Every registered enumeration and message is sampled. -/
structure Sampled (api : Api) : Prop where
  enums : ∀ id e, api.enum? id = some e → e.Sampled
  messages : ∀ id m, api.message? id = some m → m.Sampled

variable {api : Api}

/-- A model on which enrichment is idle is sampled. -/
theorem sampled_of_idle (h : Idle enrichPass api) : api.Sampled := by
  obtain ⟨hmessages, henums, -⟩ := enrichPass_idle_iff.1 h
  refine ⟨fun id e he => ?_, fun id m hm => ?_⟩
  · rw [← henums id e he]
    exact e.sampled_withSamples
  · rw [← hmessages id m hm]
    exact m.sampled_withSamples

/-- **Enriched models are sampled**, and so is every model that was cross-referenced without a defect; both are as
they were declared. -/
theorem sampled_enriched (api : Api) :
    api.enriched.Sampled ∧ api.enriched.declared = api.declared ∧
      (api.crossReference.defect = none →
        api.crossReference.state.Sampled ∧ api.crossReference.state.declared = api.declared) := by
  refine ⟨sampled_of_idle (enrichPass_repeats api), declared_enriched api, fun hdefect => ?_⟩
  have hidle : Idle enrichPass api.crossReference.state :=
    settled_of_crossReference hdefect enrichPass (by simp [passes])
  exact ⟨sampled_of_idle hidle, declared_crossReference api⟩

/-- A palette with a deprecated colour, an alias and a one-of. -/
def palette : Api :=
  let color := (((Enumeration.new "Color" "v1" none).addValue "NONE" 0).addValue "RED" 1).addValue "CRIMSON" 1
  let color := { color with values := color.values ++
    [{ name := "OCHRE", id := ".v1.Color.OCHRE", number := 2, deprecated := true }] }
  let paint := Message.new "Paint" "v1" none
  let paint := paint.addField { name := "mixed", jsonName := "mixed", kind := .message, typeId := paint.id }
  let paint := paint.addField { name := "tags", jsonName := "tags", kind := .string, repeated := true }
  let paint := paint.addField { name := "color", jsonName := "color", kind := .enumeration, typeId := color.id }
  let paint := paint.addField { name := "code", jsonName := "code", kind := .string }
  (({ name := "palette", package := "v1" } : Api).addEnum color).addMessage
    { paint with oneOfs := [{ name := "kind", id := ".v1.Paint.kind"
                              fields := [".v1.Paint.code", ".v1.Paint.color", ".v1.Paint.mixed"] }] }

theorem sampled_enriched_palette :
    palette.crossReference.defect = none ∧ palette.crossReference.state.Sampled ∧
      (∃ e, palette.crossReference.state.enum? ".v1.Color" = some e ∧ e.Sampled ∧
        e.uniqueNumberValues = ["NONE", "RED", "OCHRE"] ∧ e.valuesForExamples = ["RED", "CRIMSON"]) ∧
      ∃ m, palette.crossReference.state.message? ".v1.Paint" = some m ∧ m.Sampled ∧
        m.oneOfs.map (·.exampleField) = [some ".v1.Paint.color"] := by
  have hdefect : palette.crossReference.defect = none := rfl
  have hsampled := ((sampled_enriched palette).2.2 hdefect).1
  exact ⟨hdefect, hsampled, ⟨_, rfl, hsampled.enums ".v1.Color" _ rfl, rfl, rfl⟩, _, rfl,
    hsampled.messages ".v1.Paint" _ rfl, rfl⟩

end Api

end ApiModel
