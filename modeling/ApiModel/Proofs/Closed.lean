import ApiModel.Proofs.Build

/-!
# Models without dangling IDs

A model is closed when every ID in it is registered: the types and members that cross-referencing
follows, the listed and nested elements that validation visits, and the types behind long-running
operations.  No analysis looks the last ones up.

Principal results:

* `closed_iff_of_createModel` — of a model that was built, exactly two kinds of ID may dangle: the types
  of operations, and what is nested in messages that no list leads to;
* `not_closed_jobs` — a model is built whose operation has a type that is not there.
-/

namespace ApiModel

/-- The messages and enumerations nested in a message are registered. -/
structure Message.NestedResolve (r : Registry) (m : Message) : Prop where
  messages : ∀ n ∈ m.messages, r.messages.contains n = true
  enums : ∀ e ∈ m.enums, r.enums.contains e = true

/-- The types of an operation are registered, where it has any. -/
structure OperationInfo.Resolves (r : Registry) (info : OperationInfo) : Prop where
  response : info.responseTypeId ≠ "" → r.messages.contains info.responseTypeId = true
  metadata : info.metadataTypeId ≠ "" → r.messages.contains info.metadataTypeId = true

namespace Api

variable {c : Config} {raw api : Api}

/-- The types of every operation are registered. -/
def OperationsResolve (api : Api) : Prop :=
  ∀ id m info, api.method? id = some m → m.operation = some info → info.Resolves api.registry

/-- Whether operations resolve depends on what is declared only. -/
theorem operationsResolve_declared : api.declared.OperationsResolve ↔ api.OperationsResolve := by
  have hinfo : ∀ info : OperationInfo, OperationInfo.Resolves api.declared.registry
      { info with methodId := none } ↔ info.Resolves api.registry := by
    intro info
    constructor
    · rintro ⟨hresponse, hmetadata⟩
      exact ⟨by simpa [contains_messages_declared] using hresponse,
        by simpa [contains_messages_declared] using hmetadata⟩
    · rintro ⟨hresponse, hmetadata⟩
      exact ⟨by simpa [contains_messages_declared] using hresponse,
        by simpa [contains_messages_declared] using hmetadata⟩
  constructor
  · intro h id m info hm hop
    refine (hinfo info).1 (h id m.bare _ (by rw [method?_declared, hm]; rfl) ?_)
    simp [Method.bare, hop]
  · intro h id m info hm hop
    rw [method?_declared] at hm
    obtain ⟨n, hn, rfl⟩ := Option.map_eq_some_iff.1 hm
    obtain ⟨declaredInfo, hdeclared, rfl⟩ := Option.map_eq_some_iff.1 hop
    exact (hinfo declaredInfo).2 (h id n declaredInfo hn hdeclared)

/-- Every ID in the model is registered. -/
structure Closed (api : Api) : Prop where
  /-- The types of fields and methods, the members of one-ofs, the methods of services. -/
  resolved : api.Resolved
  operations : api.OperationsResolve
  services : ∀ id ∈ api.services, api.registry.services.contains id = true
  messages : ∀ id ∈ api.messages, api.registry.messages.contains id = true
  enums : ∀ id ∈ api.enums, api.registry.enums.contains id = true
  nested : ∀ id m, api.message? id = some m → m.NestedResolve api.registry

/-- The messages that the lists lead to. -/
inductive Reached (api : Api) : String → Prop where
  | listed {id : String} (h : id ∈ api.messages) : Reached api id
  | nested {id n : String} {m : Message} (h : Reached api id) (found : api.message? id = some m)
      (hn : n ∈ m.messages) : Reached api n

theorem walkable_of_reached (hvalid : api.Valid) {id : String} (h : api.Reached id) :
    api.Walkable id := by
  induction h with
  | listed hid => exact hvalid.messages _ hid
  | nested _ found hn ih =>
    obtain ⟨m, found', -, -, nested⟩ := ih
    obtain rfl := Option.some.inj (found.symm.trans found')
    exact nested _ hn

theorem contains_of_enumFits {id : String} (h : api.EnumFits id) :
    api.registry.enums.contains id = true := by
  obtain ⟨e, he, -⟩ := h
  exact Option.isSome_iff_exists.2 ⟨e, he⟩

theorem contains_of_walkable {id : String} (h : api.Walkable id) :
    api.registry.messages.contains id = true := by
  obtain ⟨m, found, -⟩ := h
  exact Option.isSome_iff_exists.2 ⟨m, found⟩

theorem nestedResolve_of_walkable {id : String} {m : Message} (h : api.Walkable id)
    (hm : api.message? id = some m) : m.NestedResolve api.registry := by
  obtain ⟨n, found, -, enums, nested⟩ := h
  obtain rfl := Option.some.inj (hm.symm.trans found)
  exact ⟨fun n hn => contains_of_walkable (nested n hn),
    fun e he => contains_of_enumFits (enums e he)⟩

/-- What cross-referencing and validation together leave open. -/
theorem closed_iff (hresolved : api.Resolved) (hvalid : api.Valid) :
    api.Closed ↔ api.OperationsResolve ∧
      ∀ id m, api.message? id = some m → ¬ api.Reached id → m.NestedResolve api.registry := by
  constructor
  · intro h
    exact ⟨h.operations, fun id m hm _ => h.nested id m hm⟩
  · rintro ⟨hoperations, hunreached⟩
    refine ⟨hresolved, hoperations, ?_, ?_, ?_, ?_⟩
    · intro id hid
      obtain ⟨s, hs, -⟩ := hvalid.services id hid
      exact Option.isSome_iff_exists.2 ⟨s, hs⟩
    · intro id hid
      exact contains_of_walkable (hvalid.messages id hid)
    · intro id hid
      exact contains_of_enumFits (hvalid.enums id hid)
    · intro id m hm
      by_cases hreached : api.Reached id
      · exact nestedResolve_of_walkable (walkable_of_reached hvalid hreached) hm
      · exact hunreached id m hm hreached

/-- **In a model that was built, only two kinds of ID may dangle**: the types of operations, and what
is nested in messages that no list leads to. -/
theorem closed_iff_of_createModel {ε : Type} {source : Except ε Api}
    (h : createModel c source = .ok api) :
    api.Resolved ∧ api.Valid ∧ (api.Closed ↔ api.OperationsResolve ∧
      ∀ id m, api.message? id = some m → ¬ api.Reached id → m.NestedResolve api.registry) := by
  obtain ⟨raw, -, hraw⟩ := createModel_eq_ok_iff.1 h
  have hresolved := resolved_of_analyse hraw
  have hvalid := valid_of_analyse hraw
  exact ⟨hresolved, hvalid, closed_iff hresolved hvalid⟩

/-! ## An operation without its response -/

/-- A model with one method; the response of its operation is not there. -/
def jobs : Api :=
  (({ name := "jobs", package := "v1" } : Api).addMessage (.new "Job" "v1" none)).addService
    (.new "Jobs" "v1")
    [{ name := "Start", id := ".v1.Jobs.Start", inputTypeId := ".v1.Job", outputTypeId := ".v1.Job",
       operation := some { responseTypeId := ".v1.Report", metadataTypeId := "" } }]

/-- A configuration that changes nothing. -/
def plainConfig : Config := { format := "protobuf", source := "" }

theorem valid_jobs : (jobs.documented plainConfig).state.Valid := by
  refine ⟨?_, ?_, ?_⟩
  · intro id hid
    obtain rfl : id = ".v1.Jobs" := List.mem_singleton.1 hid
    refine ⟨_, rfl, .inr ⟨rfl, rfl⟩, ?_⟩
    intro listed hlisted
    obtain rfl : listed = ".v1.Jobs.Start" := List.mem_singleton.1 hlisted
    rfl
  · intro id hid
    obtain rfl : id = ".v1.Job" := List.mem_singleton.1 hid
    exact .intro _ rfl (.inr ⟨rfl, rfl⟩) (fun _ he => nomatch he) (fun _ hn => nomatch hn)
  · intro id hid
    exact nomatch hid

theorem createModel_jobs : ∃ api, createModel plainConfig (.ok jobs : Except Unit Api) = .ok api := by
  obtain ⟨found, hfound⟩ : ∃ found,
      (jobs.documented plainConfig).state.identifyTargets = .ok found := ⟨_, rfl⟩
  have hanalyse : jobs.analyse plainConfig = .ok (found.applyOverrides plainConfig) :=
    analyse_eq_ok_iff.2 ⟨rfl, rfl, rfl, validate_eq_ok_iff.2 valid_jobs, found, hfound, rfl⟩
  exact ⟨_, createModel_eq_ok_iff.2 ⟨jobs, rfl, hanalyse⟩⟩

theorem closed_iff_of_createModel_jobs :
    ∃ api, createModel plainConfig (.ok jobs : Except Unit Api) = .ok api ∧
      api.Resolved ∧ api.Valid ∧ (api.Closed ↔ api.OperationsResolve ∧
        ∀ id m, api.message? id = some m → ¬ api.Reached id → m.NestedResolve api.registry) := by
  obtain ⟨api, h⟩ := createModel_jobs
  exact ⟨api, h, closed_iff_of_createModel h⟩

/-- The response of the operation is missing, and the model is built all the same. -/
theorem not_closed_jobs :
    ∃ api, createModel plainConfig (.ok jobs : Except Unit Api) = .ok api ∧ ¬ api.Closed := by
  obtain ⟨api, h⟩ := createModel_jobs
  refine ⟨api, h, fun hclosed => ?_⟩
  obtain ⟨raw, hraw, hanalyse⟩ := createModel_eq_ok_iff.1 h
  obtain rfl := Except.ok.inj hraw
  have hoperations := operationsResolve_declared.2 hclosed.operations
  rw [declared_of_analyse hanalyse] at hoperations
  have hreport := (hoperations ".v1.Jobs.Start" _ _ rfl rfl).response (by simp)
  exact absurd hreport (by decide)

end Api

end ApiModel
