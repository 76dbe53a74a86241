import ApiModel.Build
import ApiModel.Proofs.Target.Vocabulary

/-!
# Where the words of a vocabulary come from

A vocabulary is harvested from the whole model: from its resources, and from the paths of its standard methods.
In such a path a literal is harvested that stands before a variable, and inside the pattern of a variable a
literal that stands before `*`.

A literal names the collection of a variable only if the variable is over one segment; what stands before
`{name=projects/*/secrets/*}` is the version of the API.  The harvest takes it all the same.

Principal results:

* `mem_vocabulary_iff` — the words of a vocabulary;
* `confined_vocabulary_iff` — **the vocabulary is confined to collections if and only if** every literal before a
  variable over several segments is the name of a collection for another reason;
* `not_confined_vault` — a vocabulary with a version in it, and the target that it makes of another path.
-/

namespace ApiModel

namespace Target

variable {segments : List PathSegment} {pattern : List String} {word : String} {api : Api}

/-! ## Literals -/

/-- The literal stands right before a variable of a kind. -/
def StandsBefore (kind : PathVariable → Prop) (segments : List PathSegment) (word : String) : Prop :=
  ∃ v, [.literal word, .bound v] <:+: segments ∧ kind v

/-- The literal stands right before `*` in a pattern. -/
def StandsBeforeStar (pattern : List String) (word : String) : Prop :=
  [word, "*"] <:+: pattern ∧ word ≠ "*" ∧ word ≠ "**"

/-- Two neighbours in a list stand at its front, or behind its first element. -/
theorem neighbours_cons_cons {α : Type} {a b x y : α} {rest : List α} :
    [a, b] <:+: x :: y :: rest ↔ (a = x ∧ b = y) ∨ [a, b] <:+: y :: rest := by
  rw [List.infix_cons_iff]
  simp [List.cons_prefix_cons]

theorem not_neighbours_singleton {α : Type} {a b x : α} : ¬ [a, b] <:+: [x] := by
  intro h
  have hlength := h.length_le
  simp at hlength

theorem mem_literalsBeforeVariables_iff :
    word ∈ literalsBeforeVariables segments ↔ StandsBefore (fun _ => True) segments word := by
  unfold StandsBefore
  fun_induction literalsBeforeVariables segments with
  | case1 front v rest ih =>
    simp only [List.mem_cons, ih, neighbours_cons_cons, PathSegment.literal.injEq, PathSegment.bound.injEq,
      and_true, exists_or, exists_and_left, exists_eq]
  | case2 x rest hpair ih =>
    rw [ih]
    refine exists_congr fun v => and_congr_left' ?_
    cases rest with
    | nil => exact iff_of_false (by simp) not_neighbours_singleton
    | cons y more =>
      rw [neighbours_cons_cons]
      refine (or_iff_right ?_).symm
      -- the front would be harvested
      rintro ⟨rfl, rfl⟩
      exact hpair word v more rfl rfl
  | case3 => simp

theorem mem_literalsBeforeStars_iff :
    word ∈ literalsBeforeStars pattern ↔ StandsBeforeStar pattern word := by
  unfold StandsBeforeStar
  fun_induction literalsBeforeStars pattern with
  | case1 a b rest hstar ih =>
    simp only [Bool.and_eq_true, beq_iff_eq, bne_iff_ne] at hstar
    obtain ⟨⟨rfl, hone⟩, hmany⟩ := hstar
    rw [List.mem_cons, ih, neighbours_cons_cons, or_and_right]
    refine or_congr_left ⟨?_, fun h => h.1.1⟩
    rintro rfl
    exact ⟨⟨rfl, rfl⟩, hone, hmany⟩
  | case2 a b rest hother ih =>
    rw [ih, neighbours_cons_cons]
    refine and_congr_left fun hword => (or_iff_right ?_).symm
    rintro ⟨rfl, rfl⟩
    simp [hword.1, hword.2] at hother
  | case3 pattern hshort =>
    refine iff_of_false List.not_mem_nil fun h => ?_
    cases pattern with
    | nil => simp at h
    | cons a rest =>
      cases rest with
      | nil => exact not_neighbours_singleton h.1
      | cons b more => exact hshort a b more rfl

/-! ## Words -/

/-- The path is bound to a registered method that is standard. -/
def IsStandardPath (api : Api) (path : PathTemplate) : Prop :=
  ∃ id m b, api.method? id = some m ∧ m.traits.isStandard = true ∧ b ∈ m.pathInfo.bindings ∧ b.path = path

/-- The word is a base word, the plural of a registered resource, or a literal in the path of a standard method
that stands right before a variable of a kind or, in the pattern of a variable, right before `*`. -/
def Known (kind : PathVariable → Prop) (api : Api) (word : String) : Prop :=
  word ∈ baseVocabulary ∨
    (∃ type r, api.resource? type = some r ∧ r.plural = word ∧ word ≠ "") ∨
    ∃ path, IsStandardPath api path ∧
      (StandsBefore kind path.segments word ∨ ∃ v ∈ path.boundVariables, StandsBeforeStar v.segments word)

theorem mem_collectionsOf_iff {path : PathTemplate} : word ∈ collectionsOf path ↔
    StandsBefore (fun _ => True) path.segments word ∨
      ∃ v ∈ path.boundVariables, StandsBeforeStar v.segments word := by
  simp only [collectionsOf, List.mem_append, List.mem_flatMap, mem_literalsBeforeVariables_iff,
    mem_literalsBeforeStars_iff]

/-- **The words of a vocabulary.** -/
theorem mem_vocabulary_iff : word ∈ vocabulary api ↔ Known (fun _ => True) api word := by
  unfold vocabulary Known
  rw [List.mem_append, List.mem_append, or_assoc]
  refine or_congr_right (or_congr ?_ ?_)
  · simp only [List.mem_filter, List.mem_map, IdMap.mem_values_iff]
    constructor
    · rintro ⟨⟨r, ⟨type, hr⟩, rfl⟩, hempty⟩
      exact ⟨type, r, hr, rfl, by simpa using hempty⟩
    · rintro ⟨type, r, hr, rfl, hempty⟩
      exact ⟨⟨r, ⟨type, hr⟩, rfl⟩, by simpa using hempty⟩
  · simp only [List.mem_flatMap, List.mem_filter, IdMap.mem_values_iff, mem_collectionsOf_iff]
    constructor
    · rintro ⟨m, ⟨⟨id, hm⟩, hstandard⟩, b, hb, hword⟩
      exact ⟨b.path, ⟨id, m, b, hm, hstandard, hb, rfl⟩, hword⟩
    · rintro ⟨_, ⟨id, m, b, hm, hstandard, hb, rfl⟩, hword⟩
      exact ⟨m, ⟨⟨id, hm⟩, hstandard⟩, b, hb, hword⟩

/-- The word is the name of a collection: of the literals in the paths of standard methods only those before a
variable over one segment count. -/
def NamesCollection (api : Api) (word : String) : Prop := Known (·.isSingle = true) api word

theorem StandsBefore.cases (h : StandsBefore (fun _ => True) segments word) :
    StandsBefore (·.isSingle = true) segments word ∨ StandsBefore (·.isSingle = false) segments word := by
  obtain ⟨v, hv, -⟩ := h
  cases hsingle : v.isSingle with
  | true => exact .inl ⟨v, hv, hsingle⟩
  | false => exact .inr ⟨v, hv, hsingle⟩

/-- **The vocabulary is confined to collections if and only if** every literal before a variable over several
segments in the path of a standard method is the name of a collection for another reason. -/
theorem confined_vocabulary_iff :
    (∀ word, word ∈ vocabulary api ↔ Known (fun _ => True) api word) ∧
      ((∀ word ∈ vocabulary api, NamesCollection api word) ↔
        ∀ path word, IsStandardPath api path → StandsBefore (·.isSingle = false) path.segments word →
          NamesCollection api word) := by
  refine ⟨fun word => mem_vocabulary_iff, fun h path word hpath hword => ?_, fun h word hword => ?_⟩
  · obtain ⟨v, hv, -⟩ := hword
    exact h word (mem_vocabulary_iff.2 (.inr (.inr ⟨path, hpath, .inl ⟨v, hv, trivial⟩⟩)))
  · rcases mem_vocabulary_iff.1 hword with hbase | hplural | ⟨path, hpath, hbefore | hstar⟩
    · exact .inl hbase
    · exact .inr (.inl hplural)
    · rcases hbefore.cases with hsingle | hseveral
      · exact .inr (.inr ⟨path, hpath, .inl hsingle⟩)
      · exact h path word hpath hseveral
    · exact .inr (.inr ⟨path, hpath, .inr hstar⟩)

/-! ## A version in the vocabulary -/

def secretPath : PathTemplate :=
  { segments := [.literal "v1",
      .bound { fieldPath := ["name"], segments := ["projects", "*", "secrets", "*"] }] }

def instancePath : PathTemplate :=
  { segments := [.literal "v1", .bound { fieldPath := ["instance"], segments := ["*"] }] }

/-- A vault with a method that gets a secret by its name, and one that is not standard.  Both paths begin with
the version. -/
def rawVault : Api :=
  let package := "google.cloud.sql.v1"
  let service := Service.new "Vault" package
  let secret := { Message.new "Secret" package none with resource := some { kind := "sql/Secret" } }
  let getSecret := (Message.new "GetSecretRequest" package none).addField
    { name := "name", jsonName := "name", kind := .string
      resourceReference := some { kind := "sql/Secret" } }
  let lookUp := (Message.new "LookUpRequest" package none).addField
    { name := "instance", jsonName := "instance", kind := .string }
  (((({ name := "sql", package } : Api).addMessage secret).addMessage getSecret).addMessage
    lookUp).addService service
      [{ Method.new service "GetSecret" getSecret.id secret.id with
          pathInfo.bindings := [{ verb := "GET", path := secretPath }] },
        { Method.new service "LookUp" lookUp.id secret.id with
          pathInfo.bindings := [{ verb := "GET", path := instancePath }] }]

/-- The vault with its references resolved and its methods classified. -/
def vault : Api := rawVault.crossReference.state

/-- The target that the version makes of the other path. -/
def instanceTarget : TargetResource :=
  { fieldPaths := [["instance"]], template := "//sql.googleapis.com/v1/\x7binstance\x7d" }

/-- What a vocabulary is harvested from: a resource without a plural, and two methods, of which only the first
one is standard. -/
theorem vault_registry :
    vault.registry.resources.values.map (·.plural) = [""] ∧
      vault.registry.methods.values.map (fun m => (m.traits.isStandard, m.pathInfo.bindings)) =
        [(true, [{ verb := "GET", path := secretPath }]),
          (false, [{ verb := "GET", path := instancePath }])] := by
  decide +kernel

theorem isStandardPath_vault {path : PathTemplate} : IsStandardPath vault path ↔ path = secretPath := by
  constructor
  · rintro ⟨id, m, b, hm, hstandard, hb, rfl⟩
    have hshown := List.mem_map_of_mem (f := fun m : Method => (m.traits.isStandard, m.pathInfo.bindings))
      (IdMap.mem_values_iff.2 ⟨id, hm⟩)
    rw [vault_registry.2, hstandard, List.mem_pair] at hshown
    rcases hshown with heq | heq
    · have hbindings : m.pathInfo.bindings = [{ verb := "GET", path := secretPath }] := congrArg Prod.snd heq
      rw [hbindings] at hb
      exact congrArg PathBinding.path (List.mem_singleton.1 hb)
    · cases congrArg Prod.fst heq
  · rintro rfl
    have hlisted : (true, [{ verb := "GET", path := secretPath }]) ∈
        vault.registry.methods.values.map (fun m => (m.traits.isStandard, m.pathInfo.bindings)) := by
      rw [vault_registry.2]
      exact List.mem_cons_self
    obtain ⟨m, hm, heq⟩ := List.mem_map.1 hlisted
    obtain ⟨id, hid⟩ := IdMap.mem_values_iff.1 hm
    have hbindings : m.pathInfo.bindings = [{ verb := "GET", path := secretPath }] := congrArg Prod.snd heq
    refine ⟨id, m, { verb := "GET", path := secretPath }, hid, congrArg Prod.fst heq, ?_, rfl⟩
    rw [hbindings]
    exact List.mem_singleton_self _

theorem not_namesCollection_version : ¬ NamesCollection vault "v1" := by
  rintro (hbase | ⟨type, r, hr, hplural, -⟩ | ⟨path, hpath, hword⟩)
  · exact absurd hbase (by decide)
  · have hshown := List.mem_map_of_mem (f := (·.plural)) (IdMap.mem_values_iff.2 ⟨type, hr⟩)
    rw [vault_registry.1, List.mem_singleton, hplural] at hshown
    exact absurd hshown (by decide)
  · obtain rfl := isStandardPath_vault.1 hpath
    rcases hword with ⟨v, hv, hsingle⟩ | ⟨v, hv, hstar, -⟩
    · rcases neighbours_cons_cons.1 hv with ⟨-, hbound⟩ | hbehind
      · obtain rfl := PathSegment.bound.inj hbound
        exact absurd hsingle (by decide)
      · exact not_neighbours_singleton hbehind
    · obtain rfl := List.mem_singleton.1 hv
      exact absurd (hstar.subset List.mem_cons_self) (by decide)

/-- **The version is a word of the vocabulary**, though it only stands before a variable over several segments,
and it makes a target of another path. -/
theorem not_confined_vault :
    ¬ (∀ word ∈ vocabulary vault, NamesCollection vault word) ∧
      ∃ found m, vault.identifyTargets = .ok found ∧
        found.method? ".google.cloud.sql.v1.Vault.LookUp" = some m ∧
        m.pathInfo.bindings = [{ verb := "GET", path := instancePath, target := some instanceTarget }] := by
  have hversion : "v1" ∈ vocabulary vault := mem_vocabulary_iff.2
    (.inr (.inr ⟨secretPath, isStandardPath_vault.2 rfl, .inl ⟨_, List.infix_refl _, trivial⟩⟩))
  exact ⟨fun h => not_namesCollection_version (h "v1" hversion), _, _, rfl, rfl, rfl⟩

end Target

end ApiModel
