import ApiModel.Proofs.CrossReference.Sites

/-!
# Where cross-referencing stops

Cross-referencing stops at the first site with a defect, and keeps what it has written by then.  A site
records back references only, and only on the element that it is about: a field, the values of an
enumeration, a method or a service.

Principal results:

* `forget_write` — what a site writes is forgotten with the back references of that site;
* `crossReference_stops` — **the defect is that of the first site that has one**, and the model that is left
  differs only in the back references of the sites up to it.
-/

namespace ApiModel

open Outcome

/-! ## Forgetting back references -/

/-- The member of a one-of stands for the field at a place of a message: the first one with its ID. -/
def Site.joins (id : String) (fields : List Field) (place : Nat) : Site → Bool
  | .member messageId _ fieldId => messageId == id && Api.fieldPlace fields fieldId == place
  | _ => false

/-- The method is listed at the site. -/
def Site.lists (id : String) : Site → Bool
  | .listed _ methodId => methodId == id
  | _ => false

/-- The field without what its own site records, if `linked`, and the members of one-ofs, if `joined`. -/
def Field.forget (linked joined : Bool) (f : Field) : Field :=
  { f with
    links.parent := if linked || joined then none else f.links.parent
    links.messageType := if linked then none else f.links.messageType
    links.enumType := if linked then none else f.links.enumType
    links.group := if joined then none else f.links.group }

def Message.forget (sites : List Site) (id : String) (m : Message) : Message :=
  { m with fields := m.fields.mapIdx fun place f =>
      f.forget (sites.contains (.field id place)) (sites.any (Site.joins id m.fields place)) }

def Enumeration.forget (sites : List Site) (id : String) (e : Enumeration) : Enumeration :=
  if sites.contains (.enumeration id) then
    { e with values := e.values.map fun v => { v with parent := none } }
  else e

/-- The method without what its own site records, if `linked`, and the lists of services, if `listed`. -/
def Method.forgetLinks (linked listed : Bool) (m : Method) : Method :=
  { m with
    links.inputType := if linked then none else m.links.inputType
    links.outputType := if linked then none else m.links.outputType
    links.service := if listed then none else m.links.service
    links.sourceService := if listed then none else m.links.sourceService
    links.model := if listed then none else m.links.model
    operation := m.operation.map fun info =>
      { info with methodId := if linked then none else info.methodId } }

def Method.forget (sites : List Site) (id : String) (m : Method) : Method :=
  m.forgetLinks (sites.contains (.method id)) (sites.any (Site.lists id))

def Service.forget (sites : List Site) (id : String) (s : Service) : Service :=
  { s with model := if sites.contains (.service id) then none else s.model }

/-- The registry without the back references that the sites record. -/
def Registry.forget (sites : List Site) (r : Registry) : Registry :=
  { r with
    messages := r.messages.map (Message.forget sites)
    enums := r.enums.map (Enumeration.forget sites)
    methods := r.methods.map (Method.forget sites)
    services := r.services.map (Service.forget sites) }

namespace IdMap

/-- What a change of one element does not touch, where the view may depend on the ID. -/
theorem map_modify_keyed {α β : Type} {m : IdMap α} {id : String} {f : α → α} {view : String → α → β}
    (h : ∀ a, view id (f a) = view id a) : (m.modify id f).map view = m.map view := by
  unfold modify
  rw [map_map_keyed]
  congr 1
  funext k a
  split
  · rename_i hk
    rw [hk, h]
  · rfl

end IdMap

namespace Api

variable {api : Api} {sites : List Site}

/-! ## What a site writes -/

/-- A change of one field that its back references hide. -/
theorem forget_modify {id : String} {m : Message} {place : Nat} {change : Field → Field}
    (hid : ∀ f, (change f).id = f.id)
    (h : ∀ f, (change f).forget (sites.contains (.field id place))
      (sites.any (Site.joins id m.fields place)) =
        f.forget (sites.contains (.field id place)) (sites.any (Site.joins id m.fields place))) :
    Message.forget sites id { m with fields := m.fields.modify place change } =
      Message.forget sites id m := by
  have hjoins : Site.joins id (m.fields.modify place change) = Site.joins id m.fields := by
    have hids := map_list_modify (·.id) hid m.fields place
    funext place k
    unfold Site.joins
    simp only [fieldPlace_congr hids]
  unfold Message.forget
  simp only [hjoins]
  congr 1
  apply List.ext_getElem?
  intro i
  rw [List.getElem?_mapIdx, List.getElem?_mapIdx, List.getElem?_modify, Option.map_eq_map,
    Option.map_map]
  congr 1
  funext f
  by_cases hi : place = i
  · subst hi
    simp only [Function.comp_apply, if_pos, h]
  · simp only [Function.comp_apply, if_neg hi]

theorem map_forget_linkField {id : String} {place : Nat} (hk : Site.field id place ∈ sites)
    (messages : IdMap Message) :
    (messages.modify id (Site.linkMessage api.registry (.field id place))).map (Message.forget sites) =
      messages.map (Message.forget sites) := by
  refine IdMap.map_modify_keyed fun m => ?_
  refine forget_modify (linkField_id api.registry m.id) fun f => ?_
  simp [linkField_state, Registry.linksOf, Field.forget, hk]

theorem map_forget_joinGroup {id oneOfId fieldId : String}
    (hk : Site.member id oneOfId fieldId ∈ sites) (messages : IdMap Message) :
    (messages.modify id (Site.linkMessage api.registry (.member id oneOfId fieldId))).map
      (Message.forget sites) = messages.map (Message.forget sites) := by
  refine IdMap.map_modify_keyed fun m => ?_
  -- The site names no place: the member is the first field with the ID.
  have hjoins : sites.any (Site.joins id m.fields (fieldPlace m.fields fieldId)) = true :=
    List.any_eq_true.2 ⟨_, hk, by simp [Site.joins]⟩
  rw [Site.linkMessage, joinGroup_state]
  refine forget_modify (fun _ => rfl) fun f => ?_
  simp [Field.inGroup, Field.forget, hjoins]

theorem map_forget_linkValues {id : String} (hk : Site.enumeration id ∈ sites)
    (enums : IdMap Enumeration) :
    (enums.modify id Enumeration.linkValues).map (Enumeration.forget sites) =
      enums.map (Enumeration.forget sites) := by
  refine IdMap.map_modify_keyed fun e => ?_
  simp [Enumeration.forget, Enumeration.linkValues, hk, Function.comp_def]

theorem map_forget_linkMethod {id : String} (hk : Site.method id ∈ sites) (methods : IdMap Method) :
    (methods.modify id fun m => (api.registry.linkMethod m).state).map (Method.forget sites) =
      methods.map (Method.forget sites) := by
  refine IdMap.map_modify_keyed fun m => ?_
  by_cases hresolves : m.Resolves api.registry
  · rw [linkMethod_of_resolves hresolves]
    simp [Method.forget, Method.forgetLinks, Method.linked, hk, Option.map_map, Function.comp_def]
  · obtain ⟨d, hd⟩ := linkMethod_of_not_resolves hresolves
    rw [hd]

theorem map_forget_linkService {id : String} (hk : Site.service id ∈ sites)
    (services : IdMap Service) :
    (services.modify id (Site.linkService api (.service id))).map (Service.forget sites) =
      services.map (Service.forget sites) := by
  refine IdMap.map_modify_keyed fun s => ?_
  simp [Service.forget, Site.linkService, hk]

theorem map_forget_linkListed {serviceId id : String} (hk : Site.listed serviceId id ∈ sites)
    (methods : IdMap Method) :
    (Site.linkListed api methods (.listed serviceId id)).map (Method.forget sites) =
      methods.map (Method.forget sites) := by
  have hlists : sites.any (Site.lists id) = true :=
    List.any_eq_true.2 ⟨_, hk, by simp [Site.lists]⟩
  rw [Site.linkListed]
  cases api.service? serviceId with
  | none => rfl
  | some s =>
    refine IdMap.map_modify_keyed fun m => ?_
    simp [Method.forget, Method.forgetLinks, Method.joinService, hlists]

/-- **What a site writes is forgotten** with the back references of that site. -/
theorem forget_write {k : Site} (hk : k ∈ sites) (r : Registry) :
    (k.write api r).forget sites = r.forget sites := by
  cases k with
  | field id place => simp only [Site.write, Registry.forget, map_forget_linkField hk]
  | member id oneOfId fieldId => simp only [Site.write, Registry.forget, map_forget_joinGroup hk]
  | enumeration id => simp only [Site.write, Registry.forget, map_forget_linkValues hk]
  | method id => simp only [Site.write, Registry.forget, map_forget_linkMethod hk]
  | service id => simp only [Site.write, Registry.forget, map_forget_linkService hk]
  | listed serviceId id => simp only [Site.write, Registry.forget, map_forget_linkListed hk]

/-- What the sites write in turn is forgotten with their back references. -/
theorem forget_foldl_write {written : List Site} (h : ∀ k ∈ written, k ∈ sites) (r : Registry) :
    (written.foldl (Site.write api) r).forget sites = r.forget sites := by
  induction written generalizing r with
  | nil => rfl
  | cons k rest ih =>
    rw [List.forall_mem_cons] at h
    rw [List.foldl_cons, ih h.2, forget_write h.1]

/-! ## The first defect -/

/-- Samples and traits have no defect, and are not filled in behind one. -/
theorem crossReference_defect (api : Api) :
    api.crossReference.defect = api.sites.findSome? (Site.defect? api) := by
  rw [crossReference_eq_scan, ← scan_defect api.registry api.sites]
  unfold andThen
  rw [map_defect]
  cases hd : (scan (Site.write api) (Site.defect? api) api.registry api.sites).defect with
  | none => rfl
  | some d => exact hd

/-- **Cross-referencing stops at the first site with a defect**, and the model that it leaves differs only
in the back references of the sites up to that one. -/
theorem crossReference_stops (api : Api) :
    api.crossReference.defect = api.sites.findSome? (Site.defect? api) ∧
      ∀ d, api.crossReference.defect = some d →
        ∃ before site after, api.sites = before ++ site :: after ∧
          (∀ b ∈ before, b.defect? api = none) ∧ site.defect? api = some d ∧
          ∃ registry, api.crossReference.state = { api with registry } ∧
            registry.forget (before ++ [site]) = api.registry.forget (before ++ [site]) := by
  refine ⟨crossReference_defect api, fun d hd => ?_⟩
  have hfirst : api.sites.findSome? (Site.defect? api) = some d := by
    rw [← crossReference_defect, hd]
  obtain ⟨before, site, after, hsites, hsite, hbefore⟩ := List.findSome?_eq_some_iff.1 hfirst
  refine ⟨before, site, after, hsites, hbefore, hsite, (before ++ [site]).foldl (Site.write api)
    api.registry, ?_, forget_foldl_write (fun _ h => h) api.registry⟩
  rw [crossReference_eq_scan, hsites, scan_of_first hbefore hsite]
  rfl

/-- The second field of a message has a type that is missing; a field, a method and a service follow. -/
def unfinished : Api :=
  let job := (Message.new "Job" "v1" none)
    |>.addField { name := "parent", jsonName := "parent", kind := .message, typeId := ".v1.Job" }
    |>.addField { name := "state", jsonName := "state", kind := .enumeration, typeId := ".v1.State" }
    |>.addField { name := "label", jsonName := "label", kind := .string }
  let jobs := Service.new "Jobs" "v1"
  ({ name := "jobs", package := "v1" } : Api)
    |>.addMessage job
    |>.addService jobs [.new jobs "Get" ".v1.Job" ".v1.Task"]

theorem crossReference_stops_unfinished :
    unfinished.crossReference.defect = some (.missingEnumType ".v1.Job.state" ".v1.State") ∧
      (∃ before site after, unfinished.sites = before ++ site :: after ∧
        (∀ b ∈ before, b.defect? unfinished = none) ∧
        site.defect? unfinished = some (.missingEnumType ".v1.Job.state" ".v1.State") ∧
        ∃ registry, unfinished.crossReference.state = { unfinished with registry } ∧
          registry.forget (before ++ [site]) = unfinished.registry.forget (before ++ [site])) ∧
      (unfinished.crossReference.state.message? ".v1.Job").map
          (fun m => m.fields.map (·.links.parent)) =
        some [some ".v1.Job", some ".v1.Job", none] :=
  ⟨rfl, (crossReference_stops unfinished).2 _ rfl, rfl⟩

end Api

end ApiModel
