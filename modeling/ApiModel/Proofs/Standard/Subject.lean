import ApiModel.Standard

/-!
# What a method is about

The name of a standard method is a verb with a subject, and its request is named after both.  Verb and
subject are compared without regard to case; the subject is the rest of the name as it is written.

Principal results:

* `afterVerb?_eq_some_iff` — the subject is what the name has behind the verb, and it is not empty;
* `afterVerb?_of_sameLetters`, `named_congr` — names without regard to case;
* `subject?_eq_some_iff` — a method has a subject if it and its request are named after it;
* `prefix_of_afterVerb?` — **of two verbs that a name begins with, one begins with the other**.
-/

namespace ApiModel

open ApiModel.Text

namespace Standard

variable {verb name : String} {subject : List Char} {m : Method} {request : Message}

theorem sameLetters_iff {a b : List Char} : sameLetters a b = true ↔ foldCase a = foldCase b := by
  simp [sameLetters]

theorem foldCase_append (a b : List Char) : foldCase (a ++ b) = foldCase a ++ foldCase b :=
  List.map_append

theorem length_eq_of_sameLetters {a b : List Char} (h : sameLetters a b = true) :
    a.length = b.length := by
  have hlength := congrArg List.length (sameLetters_iff.1 h)
  simpa [foldCase] using hlength

/-! ## Behind the verb -/

/-- The subject is what the name has behind the verb, if anything. -/
theorem afterVerb?_eq_some_iff :
    afterVerb? verb name = some subject ↔
      subject ≠ [] ∧ ∃ head, name.toList = head ++ subject ∧ sameLetters head verb.toList = true := by
  have hsplit : name.toList.take verb.toList.length ++ name.toList.drop verb.toList.length =
      name.toList := List.take_append_drop _ _
  simp only [afterVerb?]
  constructor
  · intro h
    split at h
    · rename_i hbegins
      obtain rfl := Option.some.inj h
      rw [Bool.and_eq_true] at hbegins
      exact ⟨by simpa using hbegins.2, _, hsplit.symm, hbegins.1⟩
    · cases h
  · rintro ⟨hsubject, head, hname, hhead⟩
    have hlength := length_eq_of_sameLetters hhead
    rw [hname, ← hlength, List.take_left, List.drop_left, hhead, Bool.true_and]
    rw [if_pos (by simpa using hsubject)]

/-- Behind the verb a name has its rest. -/
theorem afterVerb?_of_sameLetters {verb name : String} {rest : List Char}
    (h : sameLetters name.toList (verb.toList ++ rest) = true) (hrest : rest ≠ []) :
    ∃ own, afterVerb? verb name = some own ∧ foldCase own = foldCase rest := by
  rw [sameLetters_iff, foldCase_append] at h
  obtain ⟨head, own, hname, hhead, hown⟩ := List.map_eq_append_iff.1 h
  refine ⟨own, afterVerb?_eq_some_iff.2 ⟨?_, head, hname, sameLetters_iff.2 hhead⟩, hown⟩
  rintro rfl
  exact hrest (List.map_eq_nil_iff.1 hown.symm)

/-- Of two verbs that a name begins with, one begins with the other. -/
theorem prefix_of_afterVerb? {other : String} {rest : List Char}
    (h : afterVerb? verb name = some subject) (h' : afterVerb? other name = some rest) :
    foldCase verb.toList <+: foldCase other.toList ∨
      foldCase other.toList <+: foldCase verb.toList := by
  have hbegins : ∀ {verb : String} {rest : List Char}, afterVerb? verb name = some rest →
      foldCase verb.toList <+: foldCase name.toList := by
    intro verb rest h
    obtain ⟨-, head, hname, hhead⟩ := afterVerb?_eq_some_iff.1 h
    rw [hname, foldCase_append, sameLetters_iff.1 hhead]
    exact List.prefix_append _ _
  exact List.prefix_or_prefix_of_prefix (hbegins h) (hbegins h')

/-! ## Names of methods and messages -/

/-- Names go by their letters. -/
theorem named_congr {own rest : List Char} (h : foldCase own = foldCase rest)
    (name verb suffix : String) : named name verb own suffix = named name verb rest suffix := by
  unfold named sameLetters
  rw [foldCase_append, foldCase_append, foldCase_append, foldCase_append, h]

/-- The method is named by a verb and a subject, and its request after both. -/
structure NamedAfter (verb : String) (m : Method) (request : Message) (subject : List Char) :
    Prop where
  given : subject ≠ []
  method : ∃ head, m.name.toList = head ++ subject ∧ sameLetters head verb.toList = true
  request : sameLetters request.name.toList (verb.toList ++ subject ++ "request".toList) = true

theorem NamedAfter.afterVerb? (h : NamedAfter verb m request subject) :
    afterVerb? verb m.name = some subject := afterVerb?_eq_some_iff.2 ⟨h.given, h.method⟩

theorem subject?_eq_some_iff :
    subject? verb m request = some subject ↔ NamedAfter verb m request subject := by
  unfold subject?
  constructor
  · intro h
    obtain ⟨rest, hrest, h⟩ := Option.bind_eq_some_iff.1 h
    obtain ⟨hgiven, hmethod⟩ := afterVerb?_eq_some_iff.1 hrest
    split at h
    · rename_i hnamed
      obtain rfl := Option.some.inj h
      exact ⟨hgiven, hmethod, hnamed⟩
    · cases h
  · intro h
    have hnamed : named request.name verb subject "request" = true := h.request
    rw [h.afterVerb?]
    show (if named request.name verb subject "request" then some subject else none) = some subject
    rw [hnamed, if_pos rfl]

end Standard

end ApiModel
