import ApiModel.IdMap
import ApiModel.Proofs.Answer
import ApiModel.Proofs.Schema.Place
import ApiModel.Schema.Name

/-!
# Collected names

Collecting the names of a descriptor set fails at the first that is declared again, packages apart.

Principal results:

* `collected_collectNames` — the collected names are those that the files declare, each of its kind,
  and none but packages is declared twice;
* `resolve?_eq_some` — what a name stands for is a collected definition of a kind that is looked for.
-/

namespace ApiModel

variable {ρ : Type}

/-! ## Collecting -/

/-- The names are those of the declarations, and none but packages is declared twice. -/
structure Collected (names : IdMap Definition) (ds : List Declaration) : Prop where
  /-- Every name is declared, as what it stands for. -/
  sound : ∀ name d, names.get? name = some d → (name, d.kind) ∈ ds
  /-- Every declared name is there. -/
  complete : ∀ d ∈ ds, ∃ found, names.get? d.1 = some found
  unique : ((ds.filter (·.2 != .package)).map Prod.fst).Nodup

namespace Collected

variable {names names' : IdMap Definition} {ds : List Declaration}

theorem empty : Collected ∅ [] := by
  refine ⟨?_, ?_, .nil⟩
  · intro name d h
    simp at h
  · intro d hd
    cases hd

/-- A new name is collected. -/
theorem insert (h : Collected names ds) {file : Nat} {d : Declaration}
    (hnew : names.get? d.1 = none) :
    Collected (names.insert d.1 ⟨d.2, file⟩) (ds ++ [d]) := by
  refine ⟨?_, ?_, ?_⟩
  · intro name found hfound
    rw [IdMap.get?_insert] at hfound
    split at hfound
    · rename_i hname
      obtain rfl := Option.some.inj hfound
      subst hname
      simp
    · exact List.mem_append_left _ (h.sound name found hfound)
  · intro e he
    rw [IdMap.get?_insert]
    split
    · exact ⟨_, rfl⟩
    · rename_i hne
      rcases List.mem_append.1 he with he | he
      · exact h.complete e he
      · obtain rfl := List.mem_singleton.1 he
        exact absurd rfl hne
  · have hfresh : ∀ e ∈ ds, e.1 ≠ d.1 := by
      intro e he heq
      obtain ⟨found, hfound⟩ := h.complete e he
      rw [heq, hnew] at hfound
      cases hfound
    rw [List.filter_append, List.map_append, List.nodup_append]
    refine ⟨h.unique, ?_, ?_⟩
    · rw [List.filter_cons]
      split <;> simp
    · intro a ha b hb hab
      obtain ⟨e, he, rfl⟩ := List.mem_map.1 ha
      obtain ⟨e', he', rfl⟩ := List.mem_map.1 hb
      obtain rfl := List.mem_singleton.1 (List.mem_filter.1 he').1
      exact hfresh e (List.mem_filter.1 he).1 hab

/-- A package may be declared again. -/
theorem again (h : Collected names ds) {d : Declaration} {old : Definition}
    (hold : names.get? d.1 = some old) (hpackage : d.2 = .package) :
    Collected names (ds ++ [d]) := by
  refine ⟨?_, ?_, ?_⟩
  · intro name found hfound
    exact List.mem_append_left _ (h.sound name found hfound)
  · intro e he
    rcases List.mem_append.1 he with he | he
    · exact h.complete e he
    · obtain rfl := List.mem_singleton.1 he
      exact ⟨old, hold⟩
  · have hnone : [d].filter (·.2 != .package) = [] := by simp [hpackage]
    rw [List.filter_append, hnone, List.append_nil]
    exact h.unique

theorem declare (h : Collected names ds) {file : Nat} {d : Declaration}
    (hd : ApiModel.declare file names d = .ok names') : Collected names' (ds ++ [d]) := by
  unfold ApiModel.declare at hd
  split at hd
  · rename_i hnew
    obtain rfl := Except.ok.inj hd
    exact h.insert hnew
  · rename_i old hold
    split at hd
    · rename_i hpackages
      obtain rfl := Except.ok.inj hd
      exact h.again hold hpackages.2
    · cases hd

theorem declareAll (h : Collected names ds) {file : Nat} {more : List Declaration}
    (hmore : more.foldlM (ApiModel.declare file) names = .ok names') :
    Collected names' (ds ++ more) := by
  induction more generalizing names ds with
  | nil =>
    obtain rfl := Except.ok.inj hmore
    rwa [List.append_nil]
  | cons d rest ih =>
    rw [List.foldlM_cons] at hmore
    obtain ⟨next, hnext, hrest⟩ := bind_eq_ok_iff.1 hmore
    have hall := ih (h.declare hnext) hrest
    rwa [List.append_assoc] at hall

theorem declareFiles (h : Collected names ds) {files : List (FileDescriptor ρ × Nat)}
    (hfiles : files.foldlM (fun names (f, i) => f.declarations.foldlM (ApiModel.declare i) names)
      names = .ok names') :
    Collected names' (ds ++ files.flatMap (·.1.declarations)) := by
  induction files generalizing names ds with
  | nil =>
    obtain rfl := Except.ok.inj hfiles
    rwa [List.flatMap_nil, List.append_nil]
  | cons f rest ih =>
    rw [List.foldlM_cons] at hfiles
    obtain ⟨next, hnext, hrest⟩ := bind_eq_ok_iff.1 hfiles
    have hall := ih (h.declareAll hnext) hrest
    rw [List.append_assoc] at hall
    rw [List.flatMap_cons]
    exact hall

end Collected

/-- **The collected names are those that the files declare.** -/
theorem collected_collectNames {files : List (FileDescriptor ρ)} {names : IdMap Definition}
    (h : collectNames files = .ok names) : Collected names (files.flatMap (·.declarations)) := by
  have hall := Collected.empty.declareFiles h
  rw [List.nil_append, List.flatMap_def, map_zipIdx_fst files fun f => f.declarations] at hall
  rw [List.flatMap_def]
  exact hall

/-! ## Lookup -/

namespace Visible

variable {v : Visible} {isWanted : DefinitionKind → Bool} {name fullName : String} {d : Definition}

theorem wanted?_eq_some (h : v.wanted? isWanted name = some (fullName, d)) :
    v.names.get? fullName = some d ∧ isWanted d.kind = true := by
  obtain ⟨found, hfound, heq⟩ := Option.map_eq_some_iff.1 h
  obtain ⟨rfl, rfl⟩ := Prod.mk.inj heq
  obtain ⟨hfind, hwanted⟩ := Option.filter_eq_some_iff.1 hfound
  exact ⟨(Option.filter_eq_some_iff.1 hfind).1, hwanted⟩

/-- What a name stands for is collected, and of a kind that is looked for. -/
theorem resolve?_eq_some {scope : String} (h : v.resolve? isWanted scope name = some (fullName, d)) :
    v.names.get? fullName = some d ∧ isWanted d.kind = true := by
  unfold resolve? at h
  split at h
  · exact wanted?_eq_some h
  · split at h
    · unfold dotted? at h
      obtain ⟨s, -, h⟩ := Option.bind_eq_some_iff.1 h
      exact wanted?_eq_some h
    · unfold simple? at h
      obtain ⟨s, -, h⟩ := List.exists_of_findSome?_eq_some h
      exact wanted?_eq_some h

end Visible

end ApiModel
