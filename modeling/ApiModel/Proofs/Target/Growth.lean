import ApiModel.Proofs.Target.Vocabulary

/-!
# Targets by larger vocabularies

A word that is learned may turn a literal into a collection anywhere in a path.  It makes no earlier pair,
since a name begins at the first variable, and it breaks no pair: it can only continue the run of pairs.

Principal results:

* `pairs_grow`, `firstPairs_grow` — more words extend the run of pairs;
* `extends_of_more_words` — **more words extend a target that is found**, in its fields and in its template.
-/

namespace ApiModel

namespace Target

variable {words words' : List String} {segments more : List PathSegment}

/-! ## Runs of pairs -/

theorem isCollection_mono (hwords : words ⊆ words') {word : String} (h : isCollection words word = true) :
    isCollection words' word = true := by
  simp only [isCollection, Bool.or_eq_true, List.contains_iff_mem] at h ⊢
  exact h.imp_left fun hword => hwords hword

/-- **More words extend the run** of pairs. -/
theorem pairs_grow (hwords : words ⊆ words') (segments : List PathSegment) :
    pairs words segments <+: pairs words' segments := by
  fun_induction pairs words segments with
  | case1 word v rest hpair ih =>
    rw [Bool.and_eq_true] at hpair
    rw [pairs, if_pos (Bool.and_eq_true _ _ ▸ ⟨hpair.1, isCollection_mono hwords hpair.2⟩)]
    exact List.cons_prefix_cons.2 ⟨rfl, ih⟩
  | case2 word v rest hpair => exact List.nil_prefix
  | case3 segments hother => exact List.nil_prefix

/-- The run that the search takes begins at the same place, so it is extended as well. -/
theorem firstPairs_grow (hwords : words ⊆ words') (h : firstPairs words segments ≠ []) :
    firstPairs words segments <+: firstPairs words' segments := by
  obtain ⟨i, hi, -⟩ := firstPairs_ne_nil_iff.1 h
  rw [firstPairs_eq_pairs hi, firstPairs_eq_pairs hi]
  exact pairs_grow hwords _

/-! ## Targets -/

variable {api : Api} {s : Service} {m : Method} {path : PathTemplate} {t : TargetResource}

theorem template_grow {short long : String} (hmore : segments <+: more)
    (hshort : template api s segments = .ok short) (hlong : template api s more = .ok long) :
    short.toList <+: long.toList := by
  obtain ⟨behind, rfl⟩ := hmore
  obtain ⟨H, hH, hshort⟩ := bind_eq_ok_iff.1 hshort
  obtain ⟨H', hH', hlong⟩ := bind_eq_ok_iff.1 hlong
  obtain rfl := Except.ok.inj (hH.symm.trans hH')
  obtain rfl := Except.ok.inj hshort
  obtain rfl := Except.ok.inj hlong
  refine ⟨(String.join (behind.map fun x => "/" ++ segmentText x)).toList, ?_⟩
  rw [← String.toList_append, List.map_append, String.join_append, String.append_assoc]

theorem NamedBy.mono (hwords : words ⊆ words') (h : NamedBy words s path) : NamedBy words' s path := by
  rw [namedBy_iff] at h ⊢
  exact ⟨h.1, fun hnil => h.2 (List.prefix_nil.1 (hnil ▸ firstPairs_grow hwords h.2))⟩

/-- **More words extend a target**: it stays, its fields are the first fields of the new one, and its template
is where the new one begins. -/
theorem extends_of_more_words (hwords : words ⊆ words')
    (h : byVocabulary? api s m path words = .ok (some t)) {t' : Option TargetResource}
    (h' : byVocabulary? api s m path words' = .ok t') :
    ∃ target, t' = some target ∧ t.fieldPaths <+: target.fieldPaths ∧
      t.template.toList <+: target.template.toList := by
  have hnamed := (isSome_iff_namedBy h).1 rfl
  obtain ⟨_, short, -, -, hshort, heq⟩ := (byVocabulary?_eq_ok_iff.1 h).1 (namedBy_iff.1 hnamed)
  obtain ⟨_, long, -, -, hlong, rfl⟩ := (byVocabulary?_eq_ok_iff.1 h').1 (namedBy_iff.1 (hnamed.mono hwords))
  obtain rfl := Option.some.inj heq
  obtain ⟨behind, hbehind⟩ := firstPairs_grow hwords (namedBy_iff.1 hnamed).2
  refine ⟨_, rfl, ?_, template_grow ?_ hshort hlong⟩
  · rw [← hbehind, List.map_append]
    exact List.prefix_append _ _
  · rw [← hbehind, List.flatMap_append]
    exact List.prefix_append _ _

/-- Two pairs of the path are known from the start.  Once `access` is learned, the two behind them follow. -/
theorem extends_of_more_words_disks :
    baseVocabulary ⊆ "access" :: baseVocabulary ∧
      ∃ t target, byVocabulary? disks diskService diskMethod diskPath baseVocabulary = .ok (some t) ∧
        byVocabulary? disks diskService diskMethod diskPath ("access" :: baseVocabulary) =
          .ok (some target) ∧
        t.fieldPaths <+: target.fieldPaths ∧ t.template.toList <+: target.template.toList ∧
        t.fieldPaths = [["project"], ["zone"]] ∧
        target.fieldPaths = [["project"], ["zone"], ["level"], ["disk"]] := by
  have hwords : baseVocabulary ⊆ "access" :: baseVocabulary := List.subset_cons_self _ _
  obtain ⟨t, ht, hfields⟩ : ∃ t, byVocabulary? disks diskService diskMethod diskPath baseVocabulary =
      .ok (some t) ∧ t.fieldPaths = [["project"], ["zone"]] := ⟨_, rfl, rfl⟩
  obtain ⟨t', ht', hfields'⟩ : ∃ t', byVocabulary? disks diskService diskMethod diskPath
      ("access" :: baseVocabulary) = .ok t' ∧
        t'.map (·.fieldPaths) = some [["project"], ["zone"], ["level"], ["disk"]] := ⟨_, rfl, rfl⟩
  obtain ⟨target, rfl, hextends⟩ := extends_of_more_words hwords ht ht'
  exact ⟨hwords, t, target, ht, ht', hextends.1, hextends.2, hfields, Option.some.inj hfields'⟩

end Target

end ApiModel
