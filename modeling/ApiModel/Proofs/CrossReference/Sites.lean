import ApiModel.Proofs.CrossReference.Settled
import ApiModel.Proofs.Consistent
import ApiModel.Proofs.Scan

/-!
# Where cross-referencing looks

Cross-referencing comes to the sites of a model one after another: the fields and then the one-of members of
each message, the enumerations, the methods, and each service with the methods that it lists.  Whether a
site has a defect is said by the declarations alone.

Principal results:

* `linkFields_eq_scan` and its kin — each pass that links is a scan of its sites;
* `crossReference_eq_scan` — **cross-referencing is a scan of all sites**, ahead of samples and traits.
-/

namespace ApiModel

open Outcome

/-! ## Sites -/

/-- What cross-referencing looks at in one step. -/
inductive Site where
  /-- The field at a place in a message. -/
  | field (messageId : String) (place : Nat)
  /-- A member of a one-of. -/
  | member (messageId oneOfId fieldId : String)
  | enumeration (id : String)
  | method (id : String)
  | service (id : String)
  /-- A method in the list of a service. -/
  | listed (serviceId methodId : String)
  deriving DecidableEq

/-- The fields of a message in order, and then the members of its one-ofs. -/
def Message.sites (id : String) (m : Message) : List Site :=
  (List.range m.fields.length).map (.field id) ++
    m.oneOfs.flatMap fun o => o.fields.map (.member id o.id)

/-- A service, and then the methods that it lists. -/
def Service.sites (id : String) (s : Service) : List Site := .service id :: s.methods.map (.listed id)

namespace Api

def messageSites (api : Api) : List Site :=
  api.registry.messages.entries.flatMap fun e => e.2.sites e.1

def enumSites (api : Api) : List Site := api.registry.enums.keys.map .enumeration

def methodSites (api : Api) : List Site := api.registry.methods.keys.map .method

def serviceSites (api : Api) : List Site :=
  api.registry.services.entries.flatMap fun e => e.2.sites e.1

/-- All sites in order: messages, enumerations, methods and services, each by ID. -/
def sites (api : Api) : List Site :=
  api.messageSites ++ api.enumSites ++ api.methodSites ++ api.serviceSites

end Api

/-! ## Defects of sites -/

/-- The type of the field is missing. -/
def Field.defect? (r : Registry) (f : Field) : Option Defect :=
  match f.kind with
  | .message =>
    if r.messages.contains f.typeId then none else some (.missingMessageType f.id f.typeId)
  | .enumeration =>
    if r.enums.contains f.typeId then none else some (.missingEnumType f.id f.typeId)
  | _ => none

/-- The request of the method is missing, or else its response. -/
def Method.defect? (r : Registry) (m : Method) : Option Defect :=
  if !r.messages.contains m.inputTypeId then some (.missingInputType m.id m.inputTypeId)
  else if !r.messages.contains m.outputTypeId then some (.missingOutputType m.id m.outputTypeId)
  else none

namespace Site

/-- What is wrong at a site. -/
def defect? (api : Api) : Site → Option Defect
  | .field id place =>
    ((api.message? id).bind fun m => m.fields[place]?).bind (Field.defect? api.registry)
  | .member id oneOfId fieldId => (api.message? id).bind fun m =>
    if fieldId ∈ m.fields.map (·.id) then none else some (.missingOneOfField oneOfId fieldId)
  | .method id => (api.method? id).bind (Method.defect? api.registry)
  | .listed _ id =>
    if api.registry.methods.contains id then none else some (.missingElement .method id)
  | .enumeration _ | .service _ => none

/-- What linking a site changes in its message. -/
def linkMessage (r : Registry) : Site → Message → Message
  | .field _ place, m =>
    { m with fields := m.fields.modify place fun f => (r.linkField m.id f).state }
  | .member _ oneOfId fieldId, m =>
    { m with fields := (joinGroup m.id m.fields (oneOfId, fieldId)).state }
  | _, m => m

/-- What linking a site changes in its service. -/
def linkService (api : Api) : Site → Service → Service
  | .service _, s => { s with model := some api.name }
  | _, s => s

/-- What linking a site of a service changes in the methods. -/
def linkListed (api : Api) (methods : IdMap Method) : Site → IdMap Method
  | .listed serviceId id =>
    (api.service? serviceId).elim methods fun s => methods.modify id (Method.joinService api s)
  | _ => methods

/-- Links a site. -/
def write (api : Api) (r : Registry) : Site → Registry
  | .field id place =>
    { r with messages := r.messages.modify id (linkMessage api.registry (.field id place)) }
  | .member id oneOfId fieldId =>
    { r with
      messages := r.messages.modify id (linkMessage api.registry (.member id oneOfId fieldId)) }
  | .enumeration id => { r with enums := r.enums.modify id Enumeration.linkValues }
  | .method id =>
    { r with methods := r.methods.modify id fun m => (api.registry.linkMethod m).state }
  | .service id => { r with services := r.services.modify id (linkService api (.service id)) }
  | .listed serviceId id => { r with methods := linkListed api r.methods (.listed serviceId id) }

end Site

namespace Api

variable {api other : Api}

/-! ## Messages -/

theorem linkField_defect (r : Registry) (messageId : String) (f : Field) :
    (r.linkField messageId f).defect = f.defect? r := by
  unfold Registry.linkField Field.defect?
  cases f.kind with
  | message =>
    dsimp only
    split <;> rfl
  | enumeration =>
    dsimp only
    split <;> rfl
  | _ => rfl

theorem groupMembers_eq (id : String) (m : Message) :
    m.groupMembers.map (fun member => Site.member id member.1 member.2) =
      m.oneOfs.flatMap fun o => o.fields.map (.member id o.id) := by
  unfold Message.groupMembers
  rw [List.map_flatMap]
  simp only [List.map_map, Function.comp_def]

/-- Linking a message is a scan of its sites. -/
theorem linkMessage_eq_scan {id : String} {m : Message} (hm : api.message? id = some m) :
    api.registry.linkMessage m =
      scan (fun m k => k.linkMessage api.registry m) (Site.defect? api) m (m.sites id) := by
  have hfields : sweep (api.registry.linkField m.id) m.fields =
      scan (fun fields place => fields.modify place fun f => (api.registry.linkField m.id f).state)
        (fun place => Site.defect? api (.field id place)) m.fields (List.range m.fields.length) := by
    refine sweep_eq_scan fun place f hf => ?_
    simp only [Site.defect?, hm, Option.bind_some, hf, linkField_defect]
  have hmembers : ∀ fields : List Field, fields.map (·.id) = m.fields.map (·.id) →
      fold (joinGroup m.id) fields m.groupMembers =
        scan (fun fields member => (joinGroup m.id fields member).state)
          (fun member => Site.defect? api (.member id member.1 member.2)) fields m.groupMembers := by
    intro fields hids
    refine fold_eq_scan (fun fields => fields.map (·.id) = m.fields.map (·.id)) hids ?_
    intro fields hids member _
    refine ⟨by rw [map_id_joinGroup, hids], ?_⟩
    rw [joinGroup_defect, hids]
    simp only [Site.defect?, hm, Option.bind_some]
  have hids : (sweep (api.registry.linkField m.id) m.fields).state.map (·.id) =
      m.fields.map (·.id) := map_sweep_state _ (linkField_id api.registry m.id) m.fields
  have hown : scan (fun m k => Site.linkMessage api.registry k m) (Site.defect? api) m
      ((List.range m.fields.length).map (.field id)) =
        (sweep (api.registry.linkField m.id) m.fields).map fun fields => { m with fields } := by
    rw [scan_map, hfields]
    refine scan_natural (φ := fun fields => { m with fields }) ?_ m.fields
    exact fun _ _ _ => rfl
  unfold Registry.linkMessage Message.sites
  rw [scan_append, ← groupMembers_eq, hown]
  refine map_andThen ?_
  rw [hmembers _ hids, scan_map]
  exact (scan_natural (fun _ _ _ => rfl) _).symm

/-- The site is inside the message. -/
theorem write_message {id : String} {m : Message} {k : Site} (hk : k ∈ m.sites id) (r : Registry) :
    k.write api r =
      { r with messages := r.messages.modify id (k.linkMessage api.registry) } := by
  rcases List.mem_append.1 hk with hfield | hmember
  · obtain ⟨place, -, rfl⟩ := List.mem_map.1 hfield
    rfl
  · obtain ⟨o, -, hmember⟩ := List.mem_flatMap.1 hmember
    obtain ⟨fieldId, -, rfl⟩ := List.mem_map.1 hmember
    rfl

/-- Linking messages is a scan of their sites. -/
theorem linkFields_eq_scan (api : Api) :
    api.linkFields =
      (scan (Site.write api) (Site.defect? api) api.registry api.messageSites).map fun registry =>
        { api with registry } := by
  have hsweep : (api.registry.messages.sweep api.registry.linkMessage).map
      (fun messages => ({ api.registry with messages } : Registry)) =
        scan (Site.write api) (Site.defect? api) api.registry api.messageSites :=
    IdMap.sweep_eq_scan (fun id m _ k hk messages => write_message hk { api.registry with messages })
      fun id m hm => linkMessage_eq_scan hm
  rw [← hsweep]
  rfl

/-! ## Enumerations and methods -/

/-- Linking enumerations is a scan, in which no site has a defect. -/
theorem enumPass_eq_scan (api : Api) :
    enumPass api =
      (scan (Site.write api) (Site.defect? api) api.registry api.enumSites).map fun registry =>
        { api with registry } := by
  have hsweep : (api.registry.enums.sweep fun e => (⟨e.linkValues, none⟩ : Outcome _ Defect)).map
      (fun enums => ({ api.registry with enums } : Registry)) =
        scan (Site.write api) (Site.defect? api) api.registry api.enumSites :=
    IdMap.sweep_eq_scan_keys (fun _ _ => rfl) fun _ _ _ => rfl
  have hnone : (api.registry.enums.sweep fun e => (⟨e.linkValues, none⟩ : Outcome _ Defect)).defect =
      none := IdMap.sweep_defect_eq_none_iff.2 fun _ _ _ => rfl
  rw [← hsweep]
  refine Outcome.ext ?_ hnone.symm
  rw [map_state, map_state, IdMap.sweep_state_of_ok hnone]
  rfl

theorem linkMethod_defect (r : Registry) (m : Method) : (r.linkMethod m).defect = m.defect? r := by
  unfold Registry.linkMethod Method.defect?
  split
  · rfl
  · split <;> rfl

/-- Linking methods is a scan of them. -/
theorem linkMethods_eq_scan (api : Api) :
    api.linkMethods =
      (scan (Site.write api) (Site.defect? api) api.registry api.methodSites).map fun registry =>
        { api with registry } := by
  have hsweep : (api.registry.methods.sweep api.registry.linkMethod).map
      (fun methods => ({ api.registry with methods } : Registry)) =
        scan (Site.write api) (Site.defect? api) api.registry api.methodSites := by
    refine IdMap.sweep_eq_scan_keys (fun _ _ => rfl) fun id m hm => ?_
    have hfound : api.method? id = some m := hm
    rw [Site.defect?, hfound, Option.bind_some, linkMethod_defect]
  rw [← hsweep]
  rfl

/-! ## Services -/

/-- The IDs of the methods are those of the model. -/
def SameMethods (api : Api) (methods : IdMap Method) : Prop :=
  ∀ id, methods.contains id = api.registry.methods.contains id

theorem sameMethods_linkListed {s : Service} {methods : IdMap Method} (h : api.SameMethods methods)
    (id : String) : api.SameMethods (api.linkListed s methods id).state :=
  fun listed => (contains_of_keys_eq (keys_linkListed api s methods id) listed).trans (h listed)

/-- Linking the methods that a service lists is a scan of them. -/
theorem fold_linkListed_eq_scan {id : String} {s : Service} (hs : api.service? id = some s)
    {methods : IdMap Method} (hmethods : api.SameMethods methods) :
    fold (api.linkListed s) methods s.methods =
      scan (fun methods listed => Site.linkListed api methods (.listed id listed))
        (fun listed => Site.defect? api (.listed id listed)) methods s.methods := by
  have hstate : ∀ methods listed, (api.linkListed s methods listed).state =
      Site.linkListed api methods (.listed id listed) := by
    intro methods listed
    rw [linkListed_state, Site.linkListed, hs]
    rfl
  simp only [← hstate]
  refine fold_eq_scan api.SameMethods hmethods fun methods hmethods listed _ => ?_
  refine ⟨sameMethods_linkListed hmethods listed, ?_⟩
  rw [linkListed_defect, hmethods]
  rfl

/-- Linking a service is a scan of its sites. -/
theorem linkService_eq_scan {id : String} {s : Service} (hs : api.service? id = some s)
    {methods : IdMap Method} (hmethods : api.SameMethods methods) :
    api.linkService methods s =
      scan (fun p k => (k.linkListed api p.1, k.linkService api p.2)) (Site.defect? api) (methods, s)
        (s.sites id) := by
  unfold linkService Service.sites
  rw [fold_linkListed_eq_scan hs hmethods, scan_cons, scan_map]
  exact (scan_natural (fun _ _ _ => rfl) _).symm

theorem write_service {id : String} {s : Service} {k : Site} (hk : k ∈ s.sites id) (r : Registry) :
    k.write api r =
      { r with
        methods := k.linkListed api r.methods
        services := r.services.modify id (k.linkService api) } := by
  rcases List.mem_cons.1 hk with rfl | hlisted
  · rfl
  · obtain ⟨listed, -, rfl⟩ := List.mem_map.1 hlisted
    have hsame : (r.services.modify id fun s => s) = r.services := by
      unfold IdMap.modify
      simp only [ite_self]
      exact IdMap.map_self r.services
    show _ = { r with
      methods := Site.linkListed api r.methods (.listed id listed)
      services := r.services.modify id fun s => s }
    rw [hsame]
    rfl

/-- Linking services is a scan of their sites. -/
theorem linkServices_eq_scan (api : Api) :
    api.linkServices =
      (scan (Site.write api) (Site.defect? api) api.registry api.serviceSites).map fun registry =>
        { api with registry } := by
  have hthread : (api.registry.services.thread api.linkService api.registry.methods).map
      (fun p => ({ api.registry with methods := p.1, services := p.2 } : Registry)) =
        scan (Site.write api) (Site.defect? api) api.registry api.serviceSites := by
    refine IdMap.thread_eq_scan api.SameMethods (fun _ => rfl)
      (fun id s _ k hk methods services => write_service hk { api.registry with methods, services })
      fun id s hs methods hmethods => ⟨?_, linkService_eq_scan hs hmethods⟩
    exact fold_inv api.SameMethods hmethods fun _ h listed _ => sameMethods_linkListed h listed
  rw [← hthread]
  rfl

/-! ## What is declared decides -/

theorem contains_messages_congr (h : other.declared = api.declared) (id : String) :
    other.registry.messages.contains id = api.registry.messages.contains id := by
  rw [← contains_messages_declared other, h, contains_messages_declared]

theorem contains_enums_congr (h : other.declared = api.declared) (id : String) :
    other.registry.enums.contains id = api.registry.enums.contains id := by
  rw [← contains_enums_declared other, h, contains_enums_declared]

theorem contains_services_congr (h : other.declared = api.declared) (id : String) :
    other.registry.services.contains id = api.registry.services.contains id := by
  rw [← contains_services_declared other, h, contains_services_declared]

theorem defect?_field_declared (f : Field) :
    f.bare.defect? api.declared.registry = f.defect? api.registry := by
  unfold Field.defect?
  simp only [contains_messages_declared, contains_enums_declared]
  rfl

theorem defect?_method_declared (m : Method) :
    m.bare.defect? api.declared.registry = m.defect? api.registry := by
  unfold Method.defect?
  simp only [contains_messages_declared]
  rfl

theorem defect?_declared (k : Site) : k.defect? api.declared = k.defect? api := by
  cases k with
  | field id place =>
    simp only [Site.defect?, message?_declared]
    cases api.message? id with
    | none => rfl
    | some m =>
      simp only [Option.map_some, Option.bind_some, Message.bare, List.getElem?_map]
      cases m.fields[place]? with
      | none => rfl
      | some f => exact defect?_field_declared f
  | member id oneOfId fieldId =>
    simp only [Site.defect?, message?_declared]
    cases api.message? id with
    | none => rfl
    | some m => simp [Message.bare, Field.bare]
  | method id =>
    simp only [Site.defect?, method?_declared]
    cases api.method? id with
    | none => rfl
    | some m => exact defect?_method_declared m
  | listed serviceId id => simp only [Site.defect?, contains_methods_declared]
  | enumeration id => rfl
  | service id => rfl

theorem defect?_congr (h : other.declared = api.declared) : Site.defect? other = Site.defect? api := by
  funext k
  rw [← defect?_declared, h, defect?_declared]

/-- What is written depends on what is declared and on the name of the model. -/
theorem write_congr (h : other.declared = api.declared) (hname : other.name = api.name) :
    Site.write other = Site.write api := by
  have hmessage : Site.linkMessage other.registry = Site.linkMessage api.registry := by
    unfold Site.linkMessage
    rw [linkField_congr (contains_messages_congr h) (contains_enums_congr h)]
  have hmethod : other.registry.linkMethod = api.registry.linkMethod :=
    linkMethod_congr (contains_messages_congr h)
  have hservice : Site.linkService other = Site.linkService api := by
    unfold Site.linkService
    rw [hname]
  have hjoin : Method.joinService other = Method.joinService api := by
    unfold Method.joinService
    simp only [hname, contains_services_congr h]
  have hlisted : Site.linkListed other = Site.linkListed api := by
    funext methods k
    cases k with
    | listed serviceId id =>
      have hservices := congrArg (Api.service? · serviceId) h
      simp only [service?_declared] at hservices
      have hbare : ∀ found : Option Service, (found.elim methods fun s =>
          methods.modify id (Method.joinService api s)) = (found.map Service.bare).elim methods
            fun s => methods.modify id (Method.joinService api s) := by
        intro found
        cases found <;> rfl
      rw [Site.linkListed, Site.linkListed, hjoin, hbare, hservices, ← hbare]
    | _ => rfl
  funext r k
  cases k with
  | field => simp only [Site.write, hmessage]
  | member => simp only [Site.write, hmessage]
  | enumeration => rfl
  | method => simp only [Site.write, hmethod]
  | service => simp only [Site.write, hservice]
  | listed => simp only [Site.write, hlisted]

theorem enumSites_declared (api : Api) : api.declared.enumSites = api.enumSites := by
  unfold enumSites declared
  rw [IdMap.keys_map]

theorem methodSites_declared (api : Api) : api.declared.methodSites = api.methodSites := by
  unfold methodSites declared
  rw [IdMap.keys_map]

theorem serviceSites_declared (api : Api) : api.declared.serviceSites = api.serviceSites := by
  unfold serviceSites
  show (api.registry.services.entries.map fun e => (e.1, e.2.bare)).flatMap _ = _
  rw [List.flatMap_map]
  rfl

/-! ## All passes -/

/-- The pass is a scan of its sites, which what is declared says. -/
structure IsScan (pass : Api → Outcome Api Defect) (passSites : Api → List Site) : Prop where
  eq_scan : ∀ api, pass api =
    (scan (Site.write api) (Site.defect? api) api.registry (passSites api)).map fun registry =>
      { api with registry }
  sites : ∀ api, passSites api.declared = passSites api

/-- A scan and a further pass are one scan. -/
theorem IsScan.andThen {pass : Api → Outcome Api Defect} {passSites : Api → List Site}
    (h : IsScan pass passSites) {o : Outcome Api Defect} {sites : List Site}
    (ho : o = (scan (Site.write api) (Site.defect? api) api.registry sites).map fun registry =>
      { api with registry })
    (hdeclared : o.state.declared = api.declared) :
    o.andThen pass =
      (scan (Site.write api) (Site.defect? api) api.registry (sites ++ passSites api)).map
        fun registry => { api with registry } := by
  obtain ⟨reached, hstate⟩ : ∃ reached, reached = { api with
      registry := (scan (Site.write api) (Site.defect? api) api.registry sites).state } := ⟨_, rfl⟩
  have hreached : reached.declared = api.declared := by
    rw [ho] at hdeclared
    rw [hstate]
    exact hdeclared
  have hsites : passSites reached = passSites api := by
    rw [← h.sites, hreached, h.sites]
  -- the second scan may go by the model at the start: both declare the same
  rw [scan_append, ho]
  refine (map_andThen ?_).symm
  show _ = pass { api with
    registry := (scan (Site.write api) (Site.defect? api) api.registry sites).state }
  have hname : reached.name = api.name := by rw [hstate]
  rw [← hstate, h.eq_scan, write_congr hreached hname, defect?_congr hreached, hsites, hstate]

/-- **Cross-referencing is a scan of all sites**, ahead of samples and traits. -/
theorem crossReference_eq_scan (api : Api) :
    api.crossReference =
      ((scan (Site.write api) (Site.defect? api) api.registry api.sites).map fun registry =>
        { api with registry }).andThen enrichPass := by
  have henums : IsScan enumPass enumSites := ⟨enumPass_eq_scan, enumSites_declared⟩
  have hmethods : IsScan linkMethods methodSites := ⟨linkMethods_eq_scan, methodSites_declared⟩
  have hservices : IsScan linkServices serviceSites := ⟨linkServices_eq_scan, serviceSites_declared⟩
  have hfirst := declared_linkFields api
  have hsecond : (api.linkFields.andThen enumPass).state.declared = api.declared :=
    andThen_frame declared hfirst declared_linkEnums
  have hthird := andThen_frame declared hsecond declared_linkMethods
  have hlinked := hservices.andThen
    (hmethods.andThen (henums.andThen (linkFields_eq_scan api) hfirst) hsecond) hthird
  unfold sites
  rw [← hlinked]
  rfl

end Api

end ApiModel
