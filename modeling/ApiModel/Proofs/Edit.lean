import ApiModel.Build
import ApiModel.Proofs.Repeat
import ApiModel.Proofs.Shape

/-!
# Changes element by element

An `Edit` changes every registered element by itself, and the texts of a model.  Labelling recursive
fields, documenting an element, recording targets, filling in samples and traits and renaming a model
are edits.

Principal results:

* `linkServices_edit` — linking services commutes with an edit that leaves the lists of methods and
  what links methods to services alone;
* `enriched_eq_edit` — filling in samples and traits is an edit.
-/

namespace ApiModel

/-! ## Passes on changed states -/

namespace Outcome

variable {σ τ ε α β : Type}

/-- What commutes with every step commutes with the fold. -/
theorem fold_natural {step : σ → α → Outcome σ ε} {step' : τ → α → Outcome τ ε} {φ : σ → τ}
    (h : ∀ s a, step' (φ s) a = (step s a).map φ) (s : σ) (as : List α) :
    fold step' (φ s) as = (fold step s as).map φ := by
  induction as generalizing s with
  | nil => rfl
  | cons a rest ih =>
    rw [fold_cons, fold_cons, h, map_defect, map_state]
    cases (step s a).defect with
    | none => exact ih _
    | some e => rfl

/-- What commutes with every step commutes with the thread. -/
theorem thread_natural {step : σ → α → Outcome (σ × α) ε} {step' : τ → β → Outcome (τ × β) ε}
    {φ : σ → τ} {ψ : α → β} (h : ∀ s a, step' (φ s) (ψ a) = (step s a).map fun x => (φ x.1, ψ x.2))
    (s : σ) (as : List α) :
    thread step' (φ s) (as.map ψ) = (thread step s as).map fun x => (φ x.1, x.2.map ψ) := by
  induction as generalizing s with
  | nil => rfl
  | cons a rest ih =>
    rw [List.map_cons, thread_cons, thread_cons, h, map_defect, map_state]
    cases (step s a).defect with
    | none =>
      simp only [ih]
      rfl
    | some e => rfl

end Outcome

namespace IdMap

variable {σ τ ε α : Type}

theorem contains_map {β : Type} (m : IdMap α) (f : String → α → β) (id : String) :
    (m.map f).contains id = m.contains id := by
  unfold contains
  rw [get?_map, Option.isSome_map]

/-- What holds of the elements of a changed map. -/
theorem forall_map {β : Type} {m : IdMap α} {f : String → α → β} {P : String → β → Prop} :
    (∀ id b, (m.map f).get? id = some b → P id b) ↔
      ∀ id a, m.get? id = some a → P id (f id a) := by
  constructor
  · intro h id a ha
    exact h id (f id a) (by rw [get?_map, ha]; rfl)
  · intro h id b hb
    rw [get?_map] at hb
    obtain ⟨a, ha, rfl⟩ := Option.map_eq_some_iff.1 hb
    exact h id a ha

/-- Maps that agree once changed hold elements that do. -/
theorem exists_of_map_eq {β γ : Type} {m : IdMap α} {n : IdMap β} {f : α → γ} {g : β → γ}
    (h : (m.map fun _ => f) = n.map fun _ => g) {id : String} {b : β} (hb : n.get? id = some b) :
    ∃ a, m.get? id = some a ∧ f a = g b := by
  have hlookup := congrArg (·.get? id) h
  simp only [get?_map, hb] at hlookup
  exact Option.map_eq_some_iff.1 hlookup

/-- Where maps agree in part, what the part and the place say of an element they agree on too. -/
theorem map_eq_of_map_eq {β γ : Type} {m n : IdMap α} {f : α → β} {g : String → α → γ}
    (h : (m.map fun _ => f) = n.map fun _ => f)
    (hsame : ∀ id a b, m.get? id = some a → n.get? id = some b → f a = f b → g id a = g id b) :
    m.map g = n.map g := by
  apply ext
  intro id
  rw [get?_map, get?_map]
  cases hb : n.get? id with
  | none =>
    cases hm : m.get? id with
    | none => rfl
    | some a =>
      obtain ⟨b, hother, -⟩ := exists_of_map_eq h.symm hm
      cases hb.symm.trans hother
  | some b =>
    obtain ⟨a, ha, hf⟩ := exists_of_map_eq h hb
    rw [ha, Option.map_some, Option.map_some, hsame id a b ha hb hf]

theorem map_self (m : IdMap α) : (m.map fun _ a => a) = m := by
  apply ext
  intro id
  rw [get?_map]
  cases m.get? id <;> rfl

/-- Two changes of all elements, one after another. -/
theorem map_map_keyed {β γ : Type} (m : IdMap α) (f : String → α → β) (g : String → β → γ) :
    (m.map f).map g = m.map fun id a => g id (f id a) := by
  apply ext
  intro id
  rw [get?_map, get?_map, get?_map, Option.map_map]
  rfl

theorem modify_modify_eq (m : IdMap α) (id : String) (f g : α → α) :
    (m.modify id f).modify id g = m.modify id (g ∘ f) := by
  unfold modify
  rw [map_map_keyed]
  congr 1
  funext k a
  by_cases hk : k = id <;> simp [hk]

theorem modify_modify_ne (m : IdMap α) {id other : String} (h : id ≠ other) (f g : α → α) :
    (m.modify id f).modify other g = (m.modify other g).modify id f := by
  unfold modify
  rw [map_map_keyed, map_map_keyed]
  congr 1
  funext k a
  by_cases hk : k = id
  · subst hk
    simp [h]
  · simp [hk]

/-- Changes of single elements, one after another, change every element by itself. -/
theorem foldl_modify {κ : Type} (m : IdMap α) (ks : List κ) (key : κ → String) (f : κ → α → α) :
    ks.foldl (fun m k => m.modify (key k) (f k)) m =
      m.map fun id a => ks.foldl (fun a k => if id = key k then f k a else a) a := by
  induction ks generalizing m with
  | nil => exact (map_self m).symm
  | cons k rest ih =>
    rw [List.foldl_cons, ih]
    unfold modify
    rw [map_map_keyed]
    rfl

/-- What is recorded last under an ID, over what was there. -/
def latest {κ β : Type} (key : κ → String) (value : κ → β) (ks : List κ) (id : String) (old : β) : β :=
  ks.foldl (fun old k => if id = key k then value k else old) old

section Latest

variable {κ β : Type} (key : κ → String) (value : κ → β) (ks : List κ) (id : String) (old : β)

/-- What is there is one of the records, or what was there if none was made under the ID. -/
theorem latest_cases :
    (∃ k ∈ ks, key k = id ∧ latest key value ks id old = value k) ∨
      (latest key value ks id old = old ∧ ∀ k ∈ ks, key k ≠ id) := by
  induction ks generalizing old with
  | nil => exact .inr ⟨rfl, by simp⟩
  | cons k rest ih =>
    have hstep : latest key value (k :: rest) id old =
        latest key value rest id (if id = key k then value k else old) := rfl
    rw [hstep]
    rcases ih (if id = key k then value k else old) with ⟨r, hr, hkey, hlatest⟩ | ⟨hold, hnone⟩
    · exact .inl ⟨r, List.mem_cons_of_mem _ hr, hkey, hlatest⟩
    · by_cases hid : id = key k
      · left
        rw [if_pos hid] at hold ⊢
        exact ⟨k, List.mem_cons_self .., hid.symm, hold⟩
      · right
        rw [if_neg hid] at hold ⊢
        exact ⟨hold, List.forall_mem_cons.2 ⟨Ne.symm hid, hnone⟩⟩

variable {key value ks id}

/-- Where all records under the ID say the same, that is what is there. -/
theorem latest_eq {b : β} (hmem : ∃ k ∈ ks, key k = id)
    (hsame : ∀ k ∈ ks, key k = id → value k = b) : latest key value ks id old = b := by
  rcases latest_cases key value ks id old with ⟨k, hk, hkey, hlatest⟩ | ⟨-, hnone⟩
  · rw [hlatest]
    exact hsame k hk hkey
  · obtain ⟨k, hk, hkey⟩ := hmem
    exact absurd hkey (hnone k hk)

end Latest

/-- Of several records in the same part of an element the last one stays. -/
theorem foldl_modify_part {κ β : Type} (get : α → β) (set : β → α → α) (key : κ → String)
    (value : κ → β) (set_get : ∀ a, set (get a) a = a) (get_set : ∀ b a, get (set b a) = b)
    (set_set : ∀ b b' a, set b (set b' a) = set b a) (m : IdMap α) (ks : List κ) :
    ks.foldl (fun m k => m.modify (key k) (set (value k))) m =
      m.map fun id a => set (latest key value ks id (get a)) a := by
  have hlatest : ∀ id a, ks.foldl (fun a k => if id = key k then set (value k) a else a) a =
      set (latest key value ks id (get a)) a := by
    intro id a
    induction ks generalizing a with
    | nil => exact (set_get a).symm
    | cons k rest ih =>
      rw [List.foldl_cons, ih]
      unfold latest
      rw [List.foldl_cons]
      split
      · rw [get_set, set_set]
      · rfl
  rw [foldl_modify]
  simp only [hlatest]

/-- What commutes with the step on each element commutes with the thread over the map. -/
theorem thread_natural {m : IdMap α} {step : σ → α → Outcome (σ × α) ε}
    {step' : τ → α → Outcome (τ × α) ε} (φ : σ → τ) (ψ : String → α → α)
    (h : ∀ s id a, step' (φ s) (ψ id a) = (step s a).map fun x => (φ x.1, ψ id x.2)) (s : σ) :
    (m.map ψ).thread step' (φ s) = (m.thread step s).map fun x => (φ x.1, x.2.map ψ) := by
  have hentry : ∀ s (e : String × α), onEntryWith step' (φ s) (e.1, ψ e.1 e.2) =
      (onEntryWith step s e).map fun x => (φ x.1, (x.2.1, ψ x.2.1 x.2.2)) := by
    intro s e
    unfold onEntryWith
    rw [h]
    rfl
  have hentries := Outcome.thread_natural hentry s m.entries
  unfold thread map
  simp only [hentries]
  rfl

end IdMap

/-! ## Edits -/

/-- A change of a model element by element, each under its ID, and of its texts. -/
structure Edit where
  name : String → String := fun s => s
  title : String → String := fun s => s
  description : String → String := fun s => s
  message : String → Message → Message := fun _ m => m
  enumeration : String → Enumeration → Enumeration := fun _ e => e
  service : String → Service → Service := fun _ s => s
  method : String → Method → Method := fun _ m => m

namespace Api

variable {api : Api} {e : Edit}

/-- Makes the changes. -/
def edit (api : Api) (e : Edit) : Api :=
  { api with
    name := e.name api.name
    title := e.title api.title
    description := e.description api.description
    registry.messages := api.registry.messages.map e.message
    registry.enums := api.registry.enums.map e.enumeration
    registry.services := api.registry.services.map e.service
    registry.methods := api.registry.methods.map e.method }

theorem message?_edit (api : Api) (e : Edit) (id : String) :
    (api.edit e).message? id = (api.message? id).map (e.message id) :=
  IdMap.get?_map _ _ _

/-! ## Services -/

theorem linkListed_state (api : Api) (s : Service) (methods : IdMap Method) (id : String) :
    (api.linkListed s methods id).state = methods.modify id (Method.joinService api s) := by
  unfold linkListed
  split
  · rfl
  · rename_i habsent
    apply IdMap.ext
    intro x
    rw [IdMap.get?_modify]
    split
    · rename_i hx
      subst hx
      have hnone : methods.get? x = none := by
        simpa [IdMap.contains] using habsent
      rw [hnone]
      rfl
    · rfl

theorem linkListed_defect (api : Api) (s : Service) (methods : IdMap Method) (id : String) :
    (api.linkListed s methods id).defect =
      if methods.contains id then none else some (.missingElement .method id) := by
  unfold linkListed
  split <;> rfl

end Api

/-- The edit does not touch what linking services reads and writes. -/
structure Edit.SparesServices (e : Edit) : Prop where
  methods : ∀ id s, (e.service id s).methods = s.methods
  model : ∀ id s name, { e.service id s with model := some (e.name name) } =
    e.service id { s with model := some name }
  join : ∀ api id s listed m, (e.method listed m).joinService (api.edit e) (e.service id s) =
    e.method listed (m.joinService api s)

namespace Api

variable {api : Api} {e : Edit}

theorem linkListed_edit (h : e.SparesServices) (id : String) (s : Service) (methods : IdMap Method)
    (listed : String) :
    (api.edit e).linkListed (e.service id s) (methods.map e.method) listed =
      (api.linkListed s methods listed).map (IdMap.map · e.method) := by
  have hmodify : (methods.map e.method).modify listed
      (Method.joinService (api.edit e) (e.service id s)) =
        (methods.modify listed (Method.joinService api s)).map e.method := by
    unfold IdMap.modify
    rw [IdMap.map_map_keyed, IdMap.map_map_keyed]
    congr 1
    funext k m
    split
    · exact h.join api id s k m
    · rfl
  unfold linkListed
  rw [IdMap.contains_map, hmodify]
  split <;> rfl

/-- **Linking services commutes** with such an edit. -/
theorem linkServices_edit (h : e.SparesServices) :
    (api.edit e).linkServices = api.linkServices.map (·.edit e) := by
  have hservice : ∀ methods id s,
      (api.edit e).linkService (IdMap.map methods e.method) (e.service id s) =
        (api.linkService methods s).map fun x => (IdMap.map x.1 e.method, e.service id x.2) := by
    intro methods id s
    have hfold : Outcome.fold ((api.edit e).linkListed (e.service id s)) (methods.map e.method)
        (e.service id s).methods =
          (Outcome.fold (api.linkListed s) methods s.methods).map (IdMap.map · e.method) := by
      rw [h.methods]
      exact Outcome.fold_natural (linkListed_edit h id s) methods s.methods
    unfold linkService
    rw [hfold]
    exact Outcome.ext (Prod.ext rfl (h.model id s api.name)) rfl
  have hthread := IdMap.thread_natural (m := api.registry.services)
    (fun methods => IdMap.map methods e.method) e.service hservice api.registry.methods
  unfold linkServices
  show ((api.registry.services.map e.service).thread (api.edit e).linkService
    (api.registry.methods.map e.method)).map _ = _
  rw [hthread]
  rfl

end Api

/-! ## Samples and traits -/

/-- The traits that are recorded last under an ID. -/
def latestTraits (found : List (String × Traits)) (id : String) (old : Traits) : Traits :=
  found.foldl (fun old t => if id = t.1 then t.2 else old) old

namespace Api

variable {api : Api}

/-- The traits of the methods, each under the ID that the method names. -/
def foundTraits (api : Api) : List (String × Traits) :=
  api.registry.methods.values.map fun m => (m.id, m.classify api)

theorem foldl_modify_traits (methods : IdMap Method) (found : List (String × Traits)) :
    (found.foldl (fun methods t => methods.modify t.1 fun m => { m with traits := t.2 }) methods) =
      methods.map fun id m => { m with traits := latestTraits found id m.traits } :=
  IdMap.foldl_modify_part Method.traits (fun t m => { m with traits := t }) Prod.fst Prod.snd
    (fun _ => rfl) (fun _ _ => rfl) (fun _ _ _ => rfl) methods found

/-- Samples and traits as changes of single elements. -/
def enriching (api : Api) : Edit :=
  { message := fun _ => Message.withSamples
    enumeration := fun _ => Enumeration.withSamples
    method := fun id m => { m with traits := latestTraits api.foundTraits id m.traits } }

end Api

/-- The edit changes nothing that traits go by. -/
structure Edit.KeepsShapes (e : Edit) : Prop where
  message : ∀ id m, (e.message id m).shape = m.shape
  method : ∀ id m, (e.method id m).shape = m.shape

namespace Api

variable {e : Edit}

theorem shape_edit (h : e.KeepsShapes) (api : Api) : (api.edit e).shape = api.shape := by
  refine shape_eq (fun id => ?_) rfl
  rw [message?_edit, Option.map_map]
  exact congrArg (Option.map · (api.message? id)) (funext fun m => h.message id m)

theorem classify_edit (h : e.KeepsShapes) (api : Api) (id : String) (m : Method) :
    (e.method id m).classify (api.edit e) = m.classify api :=
  Method.classify_congr (h.method id m) (shape_edit h api)

theorem foundTraits_edit (h : e.KeepsShapes) (api : Api) :
    (api.edit e).foundTraits = api.foundTraits := by
  have hid : ∀ id m, (e.method id m).shape.id = m.shape.id := by
    intro id m
    rw [h.method]
  unfold foundTraits IdMap.values
  simp only [edit, IdMap.map, List.map_map]
  refine List.map_congr_left fun x _ => ?_
  exact Prod.ext (hid x.1 x.2) (classify_edit h api x.1 x.2)

/-- Samples alone. -/
def sampling : Edit :=
  { message := fun _ => Message.withSamples, enumeration := fun _ => Enumeration.withSamples }

theorem keepsShapes_sampling : sampling.KeepsShapes where
  message _ m := Message.shape_eq_of_bare (bare_message_withSamples m) rfl
  method _ _ := rfl

theorem keepsShapes_enriching (api : Api) : api.enriching.KeepsShapes where
  message := keepsShapes_sampling.message
  method _ _ := Method.shape_eq_of_bare rfl rfl

theorem withTraits_eq (api : Api) :
    api.withTraits = { api with registry.methods := api.registry.methods.map fun id m =>
      { m with traits := latestTraits api.foundTraits id m.traits } } := by
  unfold withTraits
  rw [← foldl_modify_traits]
  rfl

/-- **Filling in samples and traits is an edit.** -/
theorem enriched_eq_edit (api : Api) : api.enriched = api.edit api.enriching := by
  have hsamples : api.enriched = (api.edit sampling).withTraits := by
    unfold enriched
    simp only [edit, sampling, IdMap.map_self]
  rw [hsamples, withTraits_eq, foundTraits_edit keepsShapes_sampling]
  simp only [edit, sampling, enriching, IdMap.map_self]

end Api

end ApiModel
