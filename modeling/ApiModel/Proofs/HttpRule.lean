import ApiModel.HttpRule
import ApiModel.Proofs.Answer

/-!
# Where the request fields of a binding go

A request field is sent in the path, in the body or in the query.  A route chooses its query fields
against its own body; the method records the body of the main route only.

Principal results:

* `records_of_pathInfo` — each binding records the route it comes from, in order;
* `pathInfo_spec` — the recorded paths, body and queries together carry each request field once if
  and only if the body of each route covers what the recorded one covers;
* `partitions_of_same_body` — which is so where all routes have one body;
* `not_partitions_postOrGet` — a rule whose routes have different bodies.
-/

namespace ApiModel

variable {fields : List String}

/-- Some variable of the path is filled from the request field, or from inside of it. -/
def PathTemplate.Binds (t : PathTemplate) (field : String) : Prop :=
  ∃ v ∈ t.boundVariables, v.fieldPath.head? = some field

/-- A body covers the request field that it names; `*` covers every field. -/
def BodyCovers (body : Option String) (field : String) : Prop :=
  body = some field ∨ body = some "*"

/-- For each binding, the query has the request fields that are neither in the path nor in the
recorded body. -/
def PathInfo.Partitions (fields : List String) (info : PathInfo) : Prop :=
  ∀ b ∈ info.bindings, ∀ field ∈ fields,
    field ∈ b.queryParameters ↔ ¬ b.path.Binds field ∧ ¬ BodyCovers info.body field

namespace HttpRoute

/-- A binding has the verb and the path of a route, and in its query the request fields that are
neither in the path nor in the route's own body. -/
structure Records (fields : List String) (r : HttpRoute) (b : PathBinding) : Prop where
  pattern : ∃ path, r.pattern = some (b.verb, path) ∧ PathTemplate.parse path = .ok b.path
  query : ∀ field, field ∈ b.queryParameters ↔
    field ∈ fields ∧ ¬ b.path.Binds field ∧ ¬ BodyCovers (some r.body) field

theorem mem_queryParameters {path : PathTemplate} {body field : String} :
    field ∈ queryParameters fields path body ↔
      field ∈ fields ∧ ¬ path.Binds field ∧ ¬ BodyCovers (some body) field := by
  unfold queryParameters
  split
  · rename_i hbody
    simp [BodyCovers, hbody]
  · rename_i hbody
    have hpath : field ∈ path.boundVariables.filterMap (·.fieldPath.head?) ↔ path.Binds field := by
      simp [PathTemplate.Binds, List.mem_filterMap]
    have hcovers : BodyCovers (some body) field ↔ field = body := by
      simp [BodyCovers, hbody, eq_comm]
    simp only [List.mem_filter, Bool.and_eq_true, Bool.not_eq_true', bne_iff_ne, hcovers, ← hpath,
      List.contains_eq_mem, decide_eq_false_iff_not]

theorem binding?_eq_none {r : HttpRoute} (h : binding? fields r = .ok none) : r.pattern = none := by
  unfold binding? at h
  split at h
  · assumption
  · obtain ⟨path, -, h⟩ := bind_eq_ok_iff.1 h
    cases h

theorem records_of_binding? {r : HttpRoute} {b : PathBinding}
    (h : binding? fields r = .ok (some b)) : r.Records fields b := by
  unfold binding? at h
  split at h
  · cases h
  · rename_i verb path hpattern
    obtain ⟨t, ht, h⟩ := bind_eq_ok_iff.1 h
    cases h
    exact ⟨⟨path, hpattern, ht⟩, fun field => mem_queryParameters⟩

end HttpRoute

namespace HttpRule

/-- The routes that become bindings. -/
def bound (rule : HttpRule) : List HttpRoute := rule.routes.filter (·.pattern.isSome)

/-- The body that is recorded. -/
def recordedBody (rule : HttpRule) : Option String :=
  if rule.main.body.isEmpty then none else some rule.main.body

/-- The body of each route covers the same of the request fields outside its path as the recorded
one does. -/
def BodiesAgree (fields : List String) (rule : HttpRule) : Prop :=
  ∀ r ∈ rule.bound, ∀ verb path t, r.pattern = some (verb, path) →
    PathTemplate.parse path = .ok t → ∀ field ∈ fields, ¬ t.Binds field →
      (BodyCovers (some r.body) field ↔ BodyCovers rule.recordedBody field)

theorem records_of_forall₂ {routes : List HttpRoute} {bindings : List (Option PathBinding)}
    (h : List.Forall₂ (fun r b => HttpRoute.binding? fields r = .ok b) routes bindings) :
    List.Forall₂ (HttpRoute.Records fields) (routes.filter (·.pattern.isSome))
      (bindings.filterMap id) := by
  induction h with
  | nil => exact .nil
  | @cons r b routes bindings hr _ ih =>
    cases b with
    | none =>
      have hpattern := HttpRoute.binding?_eq_none hr
      simpa [List.filter_cons, hpattern] using ih
    | some b =>
      have hrec := HttpRoute.records_of_binding? hr
      obtain ⟨path, hpattern, -⟩ := hrec.pattern
      simpa [List.filter_cons, hpattern] using ⟨hrec, ih⟩

/-- The bindings record the routes with a path, in order. -/
theorem records_of_pathInfo {rule : HttpRule} {info : PathInfo}
    (h : rule.pathInfo fields = .ok info) :
    List.Forall₂ (HttpRoute.Records fields) rule.bound info.bindings ∧
      info.body = rule.recordedBody := by
  unfold pathInfo at h
  obtain ⟨bindings, hmap, h⟩ := bind_eq_ok_iff.1 h
  cases h
  exact ⟨records_of_forall₂ (mapM_eq_ok_iff.1 hmap), rfl⟩

/-- The fields of a binding are parted as its route parts them, once the bodies cover the same. -/
theorem partition_iff_of_records {r : HttpRoute} {b : PathBinding} {body : Option String}
    (h : r.Records fields b) {field : String} (hfield : field ∈ fields) :
    (field ∈ b.queryParameters ↔ ¬ b.path.Binds field ∧ ¬ BodyCovers body field) ↔
      (¬ b.path.Binds field → (BodyCovers (some r.body) field ↔ BodyCovers body field)) := by
  rw [h.query field]
  by_cases hpath : b.path.Binds field
  · simp [hpath]
  · simp [hpath, hfield, not_iff_not]

/-- The recorded body, the paths and the queries carry each request field once if and only if the
bodies agree. -/
theorem partitions_iff_bodiesAgree {rule : HttpRule} {info : PathInfo}
    (hrecords : List.Forall₂ (HttpRoute.Records fields) rule.bound info.bindings)
    (hbody : info.body = rule.recordedBody) : info.Partitions fields ↔ rule.BodiesAgree fields := by
  unfold PathInfo.Partitions BodiesAgree
  rw [hbody]
  generalize rule.bound = routes at hrecords
  generalize info.bindings = bindings at hrecords
  induction hrecords with
  | nil => simp
  | @cons r b routes bindings hr _ ih =>
    rw [List.forall_mem_cons, List.forall_mem_cons, ih]
    refine and_congr_left fun _ => ?_
    obtain ⟨path, hpattern, hparse⟩ := hr.pattern
    constructor
    · intro hparts verb path' t hpattern' hparse' field hfield
      obtain ⟨rfl, rfl⟩ : b.verb = verb ∧ path = path' := by simpa [hpattern] using hpattern'
      obtain rfl : b.path = t := by simpa [hparse] using hparse'
      exact (partition_iff_of_records hr hfield).1 (hparts field hfield)
    · intro hagree field hfield
      exact (partition_iff_of_records hr hfield).2 (hagree _ _ _ hpattern hparse field hfield)

/-- **A rule's bindings record its routes**, each with the query its own body leaves; and the recorded
body, the paths and the queries together carry each request field once if and only if the body of
each route covers what the recorded one covers. -/
theorem pathInfo_spec {rule : HttpRule} {info : PathInfo} (h : rule.pathInfo fields = .ok info) :
    List.Forall₂ (HttpRoute.Records fields) rule.bound info.bindings ∧
      (info.Partitions fields ↔ rule.BodiesAgree fields) := by
  obtain ⟨hrecords, hbody⟩ := records_of_pathInfo h
  exact ⟨hrecords, partitions_iff_bodiesAgree hrecords hbody⟩

/-- The bodies agree when all routes have the body of the main one. -/
theorem bodiesAgree_of_same_body {rule : HttpRule} (hname : "" ∉ fields)
    (h : ∀ r ∈ rule.additional, r.body = rule.main.body) : rule.BodiesAgree fields := by
  intro r hr _ _ _ _ _ field hfield _
  have hbody : r.body = rule.main.body := by
    rcases List.mem_cons.1 (List.mem_filter.1 hr).1 with rfl | hr
    · rfl
    · exact h r hr
  have hne : "" ≠ field := fun hempty => hname (hempty ▸ hfield)
  unfold BodyCovers recordedBody
  rw [hbody]
  split
  · rename_i hempty
    simp [String.isEmpty_iff.1 hempty, hne]
  · rfl

/-- **Routes with one body among them** leave each binding with a query that the recorded body and its
path do not cover. -/
theorem partitions_of_same_body {rule : HttpRule} {info : PathInfo} (hname : "" ∉ fields)
    (h : rule.pathInfo fields = .ok info)
    (hsame : ∀ r ∈ rule.additional, r.body = rule.main.body) : info.Partitions fields := by
  obtain ⟨hrecords, hbody⟩ := records_of_pathInfo h
  exact (partitions_iff_bodiesAgree hrecords hbody).2 (bodiesAgree_of_same_body hname hsame)

/-- A rule that sends the whole request in the body, and has another route without a body. -/
def postOrGet : HttpRule where
  main := { pattern := some ("POST", "/v1/things"), body := "*" }
  additional := [{ pattern := some ("GET", "/v1/things") }]

/-- What is recorded of `postOrGet`: the body of the main route, and the query of the other. -/
def postOrGetInfo : PathInfo where
  bindings := [
    { verb := "POST", path := { segments := [.literal "v1", .literal "things"] } },
    { verb := "GET", path := { segments := [.literal "v1", .literal "things"] },
      queryParameters := ["name"] }]
  body := some "*"

theorem pathInfo_spec_postOrGet :
    List.Forall₂ (HttpRoute.Records ["name"]) postOrGet.bound postOrGetInfo.bindings ∧
      (postOrGetInfo.Partitions ["name"] ↔ postOrGet.BodiesAgree ["name"]) :=
  pathInfo_spec (show postOrGet.pathInfo ["name"] = .ok postOrGetInfo by rfl)

/-- A field is recorded in the query and in the body at once. -/
theorem not_partitions_postOrGet :
    postOrGet.pathInfo ["name"] = .ok postOrGetInfo ∧ ¬ postOrGetInfo.Partitions ["name"] := by
  refine ⟨by rfl, ?_⟩
  intro h
  have hget := h postOrGetInfo.bindings[1] (by simp [postOrGetInfo]) "name" (by simp)
  have hquery : "name" ∈ postOrGetInfo.bindings[1].queryParameters := by simp [postOrGetInfo]
  exact (hget.1 hquery).2 (.inr rfl)

end HttpRule

end ApiModel
