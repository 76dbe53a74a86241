import ApiModel.Proofs.Resolved

/-!
# Defects of target resources

Identifying targets follows the field paths of HTTP paths and names hosts.  In a model whose methods
resolve nothing else can go wrong.

Principal result: `ofPath_of_identifyTargets` — **the defects of the pass** are a field that a path
names and its message does not have, a field on a path without a message type, and a service without a
host.
-/

namespace ApiModel

/-- A defect of an HTTP path or of the service it belongs to. -/
def Defect.OfPath : Defect → Prop
  | .missingField _ _ _ | .missingFieldMessageType _ _ | .missingHost _ => True
  | _ => False

namespace Target

variable {api : Api} {s : Service} {m : Method} {e : Defect}

/-- What is looked up fails with the defect that is given for it. -/
theorem error_of_elim {α : Type} {found : Option α} {d : Defect}
    (h : found.elim (.error d) Except.ok = .error e) : e = d := by
  cases found with
  | none => exact (Except.error.inj h).symm
  | some a => cases h

theorem ofPath_of_follow {whole : String} {message : Message} {path : List String}
    (h : follow api m whole message path = .error e) : e.OfPath := by
  induction path generalizing message with
  | nil =>
    obtain rfl := Except.error.inj h
    trivial
  | cons name rest ih =>
    cases rest with
    | nil =>
      obtain rfl := error_of_elim h
      trivial
    | cons next rest =>
      unfold follow at h
      rcases bind_eq_error_iff.1 h with hfield | ⟨f, -, h⟩
      · obtain rfl := error_of_elim hfield
        trivial
      · rcases bind_eq_error_iff.1 h with hmessage | ⟨inner, -, h⟩
        · obtain rfl := error_of_elim hmessage
          trivial
        · exact ih h

theorem ofPath_of_template {segments : List PathSegment}
    (h : template api s segments = .error e) : e.OfPath := by
  unfold template at h
  rcases bind_eq_error_iff.1 h with hhost | ⟨name, -, h⟩
  · unfold host at hhost
    split at hhost
    · cases hhost
    · split at hhost
      · cases hhost
      · obtain rfl := Except.error.inj hhost
        trivial
  · cases h

/-- The request of a method that resolves is found. -/
theorem request_of_resolves (hm : m.Resolves api.registry) : ∃ input, request api m = .ok input := by
  obtain ⟨input, hinput⟩ := Option.isSome_iff_exists.1 hm.input
  have hmessage : api.message? m.inputTypeId = some input := hinput
  exact ⟨input, by rw [request, hmessage]; rfl⟩

theorem ofPath_of_explicit? (hm : m.Resolves api.registry) {path : PathTemplate}
    (h : explicit? api s m path = .error e) : e.OfPath := by
  obtain ⟨input, hinput⟩ := request_of_resolves hm
  unfold explicit? at h
  rcases bind_eq_error_iff.1 h with hrequest | ⟨_, -, h⟩
  · rw [hinput] at hrequest
    cases hrequest
  · rcases bind_eq_error_iff.1 h with hfields | ⟨fields, -, h⟩
    · obtain ⟨v, -, hv⟩ := exists_error_of_mapM hfields
      exact ofPath_of_follow hv
    · split at h
      · cases h
      · rcases bind_eq_error_iff.1 h with htemplate | ⟨name, -, h⟩
        · exact ofPath_of_template htemplate
        · cases h

theorem ofPath_of_byVocabulary? (hm : m.Resolves api.registry) {path : PathTemplate}
    {vocabulary : List String} (h : byVocabulary? api s m path vocabulary = .error e) :
    e.OfPath := by
  obtain ⟨input, hinput⟩ := request_of_resolves hm
  unfold byVocabulary? at h
  split at h
  · cases h
  · split at h
    · cases h
    · rcases bind_eq_error_iff.1 h with hrequest | ⟨_, -, h⟩
      · rw [hinput] at hrequest
        cases hrequest
      · rcases bind_eq_error_iff.1 h with hfields | ⟨_, -, h⟩
        · obtain ⟨p, -, hp⟩ := exists_error_of_forM hfields
          rcases bind_eq_error_iff.1 hp with hp | ⟨_, -, hp⟩
          · exact ofPath_of_follow hp
          · cases hp
        · rcases bind_eq_error_iff.1 h with htemplate | ⟨name, -, h⟩
          · exact ofPath_of_template htemplate
          · cases h

theorem ofPath_of_ofMethod (hm : m.Resolves api.registry) {vocabulary : List String}
    (h : ofMethod api vocabulary s m = .error e) : e.OfPath := by
  unfold ofMethod at h
  rcases bind_eq_error_iff.1 h with htargets | ⟨_, -, h⟩
  · obtain ⟨b, -, hb⟩ := exists_error_of_mapM htargets
    unfold ofPath at hb
    rcases bind_eq_error_iff.1 hb with hexplicit | ⟨found, -, hb⟩
    · exact ofPath_of_explicit? hm hexplicit
    · cases found with
      | none => exact ofPath_of_byVocabulary? hm hb
      | some t => cases hb
  · cases h

theorem identifyTargets_eq_error_iff : api.identifyTargets = .error e ↔ all api = .error e := by
  unfold Api.identifyTargets
  rw [Outcome.toExcept_eq_error_iff]
  unfold Api.targetPass
  split <;> rename_i hall <;> simp [hall]

/-- **The defects of the pass** are those of paths and hosts. -/
theorem ofPath_of_identifyTargets (hmethods : api.MethodsResolve)
    (h : api.identifyTargets = .error e) : e.OfPath := by
  rcases bind_eq_error_iff.1 (identifyTargets_eq_error_iff.1 h) with hservices | ⟨_, -, hfound⟩
  · obtain ⟨s, -, hs⟩ := exists_error_of_mapM hservices
    obtain ⟨m, hm, hmethod⟩ := exists_error_of_mapM hs
    obtain ⟨id, -, hid⟩ := List.mem_filterMap.1 hm
    exact ofPath_of_ofMethod (hmethods id m hid) hmethod
  · cases hfound

end Target

end ApiModel
