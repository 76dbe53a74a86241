import ApiModel.Proofs.Schema.Reference

/-!
# Validity of the model of a coherent schema

What the model lists stands in files of its package, so that every ID begins with the package.  A
message is declared ahead of those nested in it: the walk through the messages follows the
declarations and ends with them.

Principal result: `valid_toApi` — the raw model is valid.
-/

namespace ApiModel

namespace Schema

variable {schema : Schema} {choice : Option String} {raw : Api} {file : FileDescriptor FieldType}

/-! ## Elements in their package -/

theorem inPackage_of_within {package fullName : String} (h : Within package fullName)
    (hpackage : package ≠ "") : Validation.inPackage package (elementId fullName) = true := by
  obtain ⟨rest, rfl⟩ := h.resolve_left hpackage
  unfold Validation.inPackage
  rw [List.isPrefixOf_iff_prefix]
  refine ⟨rest.toList, ?_⟩
  rw [← String.toList_append]
  unfold elementId
  simp only [String.append_assoc]

/-- An element of a file of the package fits. -/
theorem fitsPackage_of_within (hpackage : file.package = raw.package) {fullName : String}
    (h : Within file.package fullName) :
    raw.FitsPackage (elementId fullName) file.package := by
  unfold Api.FitsPackage
  by_cases hnone : raw.package = ""
  · exact .inl hnone
  · rw [hpackage] at h
    exact .inr ⟨hpackage, inPackage_of_within h hnone⟩

theorem package_toApi (h : schema.toApi choice = .ok raw) :
    raw.package = choice.getD schema.sourcePackage :=
  congrArg Listing.package (listing_toApi h)

/-- What is listed in a message of the package is nested in it. -/
theorem exists_nested_message {m : Message} (hm : m ∈ schema.messagesOf file) {id : String}
    (hid : id ∈ ((m.withChildren (schema.messagesOf file)).withEnums
      (schema.enumsOf file)).messages) :
    ∃ child ∈ schema.messagesOf file, child.parent = some m.id ∧ child.id = id := by
  obtain ⟨p, -, rfl⟩ := List.mem_map.1 hm
  obtain ⟨child, hchild, rfl⟩ := List.mem_map.1 hid
  obtain ⟨hmem, hparent⟩ := List.mem_filter.1 hchild
  exact ⟨child, hmem, by simpa using hparent, rfl⟩

theorem exists_nested_enum {m : Message} (hm : m ∈ schema.messagesOf file) {id : String}
    (hid : id ∈ ((m.withChildren (schema.messagesOf file)).withEnums
      (schema.enumsOf file)).enums) :
    ∃ e ∈ schema.enumsOf file, e.id = id := by
  obtain ⟨p, -, rfl⟩ := List.mem_map.1 hm
  obtain ⟨e, he, rfl⟩ := List.mem_map.1 hid
  exact ⟨e, (List.mem_filter.1 he).1, rfl⟩

section OwnFile

variable (hcoherent : schema.Coherent) (h : schema.toApi choice = .ok raw)
  (hfile : file ∈ schema.files) (hpackage : file.package = raw.package)

include hcoherent h hfile hpackage

theorem enumFits_toApi {e : Enumeration} (he : e ∈ schema.enumsOf file) : raw.EnumFits e.id := by
  refine ⟨e, ((holds_toApi hcoherent.namesUnique h).enums e.id e).2 ⟨?_, rfl⟩, ?_⟩
  · exact mem_inventory_enums.2 ⟨file, hfile, he⟩
  obtain ⟨p, hp, rfl⟩ := List.mem_map.1 he
  exact fitsPackage_of_within hpackage (FileDescriptor.within_placedEnum hp)

theorem serviceFits_toApi {x : Service × List Method} (hx : x ∈ schema.servicesOf file) :
    raw.ServiceFits x.1.id := by
  have hcontribution : x.1.listing x.2 ∈ (schema.contribution file raw.package).services := by
    unfold contribution
    rw [if_pos hpackage]
    exact List.mem_map_of_mem hx
  have hfound : raw.service? x.1.id = some (x.1.listing x.2) := by
    refine ((holds_toApi hcoherent.namesUnique h).services _ _).2 ⟨?_, rfl⟩
    rw [← package_toApi h]
    exact mem_inventory_services.2 ⟨file, hfile, hcontribution⟩
  refine ⟨_, hfound, ?_, servicesResolve_toApi hcoherent h _ _ hfound⟩
  obtain ⟨s, hs, rfl⟩ := List.mem_map.1 hx
  obtain ⟨d, -, rfl⟩ := List.mem_map.1 hs
  exact fitsPackage_of_within hpackage (within_qualifiedName (.inl rfl) _)

/-! ## Messages -/

theorem message?_toApi {m : Message} (hm : m ∈ schema.messagesOf file) :
    raw.message? m.id =
      some ((m.withChildren (schema.messagesOf file)).withEnums (schema.enumsOf file)) := by
  refine ((holds_toApi hcoherent.namesUnique h).messages _ _).2 ⟨?_, rfl⟩
  rw [← package_toApi h]
  refine mem_inventory_messages.2 ⟨file, hfile, ?_⟩
  unfold contribution
  rw [if_pos hpackage]
  exact List.mem_map_of_mem hm

/-- The messages behind some point of a file can be walked: those nested in the first of them are
further behind. -/
theorem walkable_behind (hfirst : ParentsFirst (schema.messagesOf file))
    {ahead behind : List Message}
    (hsplit : schema.messagesOf file = ahead ++ behind) : ∀ m ∈ behind, raw.Walkable m.id := by
  induction behind generalizing ahead with
  | nil => simp
  | cons m rest ih =>
    have hsplit' : schema.messagesOf file = (ahead ++ [m]) ++ rest := by
      simpa using hsplit
    have hrest : ∀ n ∈ rest, raw.Walkable n.id := ih hsplit'
    have hm : m ∈ schema.messagesOf file := by simp [hsplit]
    rw [List.forall_mem_cons]
    refine ⟨.intro _ (message?_toApi hcoherent h hfile hpackage hm) ?_ ?_ ?_, hrest⟩
    · obtain ⟨p, hp, rfl⟩ := List.mem_map.1 hm
      exact fitsPackage_of_within hpackage (FileDescriptor.within_placedMessage hp)
    · intro id hid
      obtain ⟨e, he, rfl⟩ := exists_nested_enum hm hid
      exact enumFits_toApi hcoherent h hfile hpackage he
    · intro id hid
      obtain ⟨child, hchild, hparent, rfl⟩ := exists_nested_message hm hid
      obtain ⟨hpairs, hself⟩ := hfirst
      rw [hsplit] at hchild hpairs
      rcases List.mem_append.1 hchild with hahead | hbehind
      · exact absurd hparent ((List.pairwise_append.1 hpairs).2.2 child hahead m (by simp))
      · rcases List.mem_cons.1 hbehind with rfl | hbehind
        · exact absurd hparent (hself child hm)
        · exact hrest child hbehind

theorem walkable_toApi {m : Message} (hm : m ∈ schema.messagesOf file) : raw.Walkable m.id := by
  have hnames := hcoherent.namesUnique.nodup_messageNames
  unfold messageNames at hnames
  have hnodup : file.messageNames.Nodup := (List.nodup_flatMap.1 hnames).1 file hfile
  exact walkable_behind hcoherent h hfile hpackage (parentsFirst_messagesOf hnodup)
    (List.nil_append _).symm m hm

end OwnFile

/-! ## The raw model -/

/-- **The raw model is valid.** -/
theorem valid_toApi (hcoherent : schema.Coherent) (h : schema.toApi choice = .ok raw) :
    raw.Valid := by
  have hlisting := listing_toApi h
  rw [← package_toApi h] at hlisting
  have hservices : raw.services = _ := congrArg Listing.services hlisting
  have hmessages : raw.messages = _ := congrArg Listing.messages hlisting
  have henums : raw.enums = _ := congrArg Listing.enums hlisting
  refine ⟨?_, ?_, ?_⟩
  · intro id hid
    rw [hservices] at hid
    obtain ⟨file, hfile, hid⟩ := List.mem_flatMap.1 hid
    obtain ⟨hfile, hpackage⟩ := List.mem_filter.1 hfile
    obtain ⟨x, hx, rfl⟩ := List.mem_map.1 hid
    exact serviceFits_toApi hcoherent h hfile (by simpa using hpackage) hx
  · intro id hid
    rw [hmessages] at hid
    obtain ⟨file, hfile, hid⟩ := List.mem_flatMap.1 hid
    obtain ⟨hfile, hpackage⟩ := List.mem_filter.1 hfile
    obtain ⟨m, hm, rfl⟩ := List.mem_map.1 hid
    exact walkable_toApi hcoherent h hfile (by simpa using hpackage) (List.mem_filter.1 hm).1
  · intro id hid
    rw [henums] at hid
    obtain ⟨file, hfile, hid⟩ := List.mem_flatMap.1 hid
    obtain ⟨hfile, hpackage⟩ := List.mem_filter.1 hfile
    obtain ⟨e, he, rfl⟩ := List.mem_map.1 hid
    exact enumFits_toApi hcoherent h hfile (by simpa using hpackage) (List.mem_filter.1 he).1

end Schema

end ApiModel
