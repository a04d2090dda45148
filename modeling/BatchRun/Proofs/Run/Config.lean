import BatchRun.Proofs.Patch.Wire
import BatchRun.Run.Config

/-!
# A configuration is read back as it was written

A configuration is written as one object, in which the fields of the shortcuts stand among its own.
It is read back from that object and from any reordering of it, with foreign members put in
anywhere.

* `Shortcuts.ofMembers_of_perm`: the shortcuts among other members;
* **`JobConfig.ofDocument_toDocument_perm`**: the whole configuration.
-/

namespace BatchRun

/-! ## Shortcuts -/

namespace Shortcuts

theorem asOption_optionalText (text : Option String) :
    Document.asOption Document.asString (optionalText text) = .ok text := by
  cases text <;> rfl

theorem asOption_pullPolicy (emptyPayload : Bool) (policy : Option PullPolicy) :
    Document.asOption (PullPolicy.ofDocument emptyPayload)
      (optionalText (policy.map PullPolicy.name)) = .ok policy := by
  rcases policy with _ | (_ | _ | _) <;> rfl

theorem nodup_keys_toMembers (s : Shortcuts) : s.toMembers.keys.Nodup := by
  simp [toMembers]

/-- **The shortcuts are read back, in any order and among members that are none of theirs.** -/
theorem ofMembers_of_perm (emptyPayload : Bool) (s : Shortcuts) {extra ms : Members}
    (hextra : ∀ name ∈ fieldNames, name ∉ extra.keys) (hms : ms.Perm (s.toMembers ++ extra)) :
    ofMembers emptyPayload ms = .ok s := by
  have hget {name : String} (hname : name ∈ fieldNames) : ms.get? name = s.toMembers.get? name :=
    Members.get?_of_perm_append s.nodup_keys_toMembers (hextra name hname) hms
  have hcheck : checkMembers (fieldChecks emptyPayload) ms = .ok () := by
    refine checkMembers_of_perm s.nodup_keys_toMembers hextra hms ?_
    exact .cons ⟨rfl, rfl⟩ <| .cons ⟨rfl, admits_of_ok (asOption_optionalText s.image)⟩ <|
      .cons ⟨rfl, admits_of_ok (Document.asTextMap_ofTextMap s.labels)⟩ <|
      .cons ⟨rfl, admits_of_ok (Document.asTextMap_ofTextMap s.env)⟩ <|
      .cons ⟨rfl, admits_of_ok (asOption_pullPolicy emptyPayload s.pullPolicy)⟩ <|
      .cons ⟨rfl, admits_of_ok (asOption_optionalText s.serviceAccount)⟩ <|
      .cons ⟨rfl, admits_of_ok (Document.asList_ofStrings s.command)⟩ <|
      .cons ⟨rfl, admits_of_ok (asOption_optionalText s.name)⟩ .nil
  have hread {α : Type} {name : String} {default value : α} {d : Document}
      {read : Document → Except Mismatch α} (hname : name ∈ fieldNames)
      (hd : s.toMembers.get? name = some d) (hvalue : read d = .ok value) :
      fieldOr ms name default read = .ok value :=
    fieldOr_of_get? default ((hget hname).trans hd) hvalue
  have hns : fieldOr ms "namespace" standard.ns Document.asString = .ok s.ns :=
    hread (by decide) rfl rfl
  have himage : fieldOr ms "image" none (Document.asOption Document.asString) = .ok s.image :=
    hread (by decide) rfl (asOption_optionalText s.image)
  have hlabels : fieldOr ms "labels" .empty Document.asTextMap = .ok s.labels :=
    hread (by decide) rfl (Document.asTextMap_ofTextMap s.labels)
  have henv : fieldOr ms "env" .empty Document.asTextMap = .ok s.env :=
    hread (by decide) rfl (Document.asTextMap_ofTextMap s.env)
  have hpolicy : fieldOr ms "imagePullPolicy" none
      (Document.asOption (PullPolicy.ofDocument emptyPayload)) = .ok s.pullPolicy :=
    hread (by decide) rfl (asOption_pullPolicy emptyPayload s.pullPolicy)
  have haccount : fieldOr ms "serviceAccountName" none (Document.asOption Document.asString) =
      .ok s.serviceAccount :=
    hread (by decide) rfl (asOption_optionalText s.serviceAccount)
  have hcommand : fieldOr ms "command" [] (Document.asList Document.asString) = .ok s.command :=
    hread (by decide) rfl (Document.asList_ofStrings s.command)
  have hname : fieldOr ms "name" none (Document.asOption Document.asString) = .ok s.name :=
    hread (by decide) rfl (asOption_optionalText s.name)
  simp only [ofMembers, hcheck, hns, himage, hlabels, henv, hpolicy, haccount, hcommand, hname]
  rfl

end Shortcuts

/-! ## Configurations -/

namespace JobConfig

/-- The names of all fields, those of the shortcuts included. -/
def fieldNames : List String := fieldChecks.map Prod.fst ++ Shortcuts.fieldNames

/-- The fields besides the shortcuts. -/
def ownMembers (c : JobConfig) : Members := c.leadingMembers ++ c.trailingMembers

/-- All fields, in the order in which they are written. -/
def members (c : JobConfig) : Members :=
  c.leadingMembers ++ c.shortcuts.toMembers ++ c.trailingMembers

theorem toDocument_eq (c : JobConfig) : c.toDocument = .object c.members := rfl

theorem nodup_keys_ownMembers (c : JobConfig) : c.ownMembers.keys.Nodup := by
  simp [ownMembers, leadingMembers, trailingMembers]

/-- The other fields are read back, in any order and among members that are none of them. -/
theorem ofDocument_of_perm (c : JobConfig) {extra ms : Members}
    (hextra : ∀ name ∈ fieldChecks.map Prod.fst, name ∉ extra.keys)
    (hms : ms.Perm (c.ownMembers ++ extra))
    (hshortcuts : Shortcuts.ofMembers true ms = .ok c.shortcuts) :
    ofDocument (.object ms) = .ok c := by
  have hcheck : checkMembers fieldChecks ms = .ok () := by
    refine checkMembers_of_perm c.nodup_keys_ownMembers hextra hms ?_
    exact .cons ⟨rfl, rfl⟩ <|
      .cons ⟨rfl, admits_of_ok (Patch.ofDocument_toDocument c.customizations)⟩ <|
      .cons ⟨rfl, admits_of_ok (Document.asUnsigned_int c.podSeconds)⟩ <|
      .cons ⟨rfl, admits_of_ok (Document.asUnsigned_int c.jobSeconds)⟩ <| .cons ⟨rfl, rfl⟩ .nil
  have hread {α : Type} {name : String} {default value : α} {d : Document}
      {read : Document → Except Mismatch α} (hname : name ∈ fieldChecks.map Prod.fst)
      (hd : c.ownMembers.get? name = some d) (hvalue : read d = .ok value) :
      fieldOr ms name default read = .ok value :=
    fieldOr_of_get? default
      ((Members.get?_of_perm_append c.nodup_keys_ownMembers (hextra name hname) hms).trans hd)
      hvalue
  have hjob : fieldOr ms "job" standard.job .ok = .ok c.job := hread (by decide) rfl rfl
  have hcustomizations : fieldOr ms "customizations" standard.customizations Patch.ofDocument =
      .ok c.customizations :=
    hread (by decide) rfl (Patch.ofDocument_toDocument c.customizations)
  have hpod : fieldOr ms "podWatchTimeoutSeconds" standard.podSeconds Document.asUnsigned =
      .ok c.podSeconds :=
    hread (by decide) rfl (Document.asUnsigned_int c.podSeconds)
  have hend : fieldOr ms "jobWatchTimeoutSeconds" standard.jobSeconds Document.asUnsigned =
      .ok c.jobSeconds :=
    hread (by decide) rfl (Document.asUnsigned_int c.jobSeconds)
  have hstream : fieldOr ms "streamOutput" standard.streamOutput Document.asBool =
      .ok c.streamOutput :=
    hread (by decide) rfl rfl
  simp only [ofDocument, hcheck, hjob, hcustomizations, hpod, hend, hstream, hshortcuts]
  rfl

theorem ofDocument_of_perm_members (c : JobConfig) {extra ms : Members}
    (hextra : ∀ p ∈ extra, p.1 ∉ fieldNames) (hms : ms.Perm (c.members ++ extra)) :
    ofDocument (.object ms) = .ok c := by
  have hforeign {name : String} (hname : name ∈ fieldNames) : name ∉ extra.keys := by
    intro hkey
    obtain ⟨p, hp, rfl⟩ := List.mem_map.1 hkey
    exact hextra p hp hname
  have happart : ∀ name ∈ fieldChecks.map Prod.fst, name ∉ Shortcuts.fieldNames := by decide
  have hkeys (ms ns : Members) (name : String) :
      name ∉ (ms ++ ns).keys ↔ name ∉ ms.keys ∧ name ∉ ns.keys := by
    rw [Members.keys, List.map_append, List.mem_append, not_or]
    rfl
  have hshortcuts : ms.Perm (c.shortcuts.toMembers ++ (c.ownMembers ++ extra)) := by
    refine hms.trans ?_
    simp only [members, ownMembers, List.append_assoc]
    exact List.perm_append_comm_assoc _ _ _
  have hown : ms.Perm (c.ownMembers ++ (c.shortcuts.toMembers ++ extra)) :=
    hshortcuts.trans (List.perm_append_comm_assoc _ _ _)
  refine c.ofDocument_of_perm (fun name hname => ?_) hown
    (Shortcuts.ofMembers_of_perm true c.shortcuts (fun name hname => ?_) hshortcuts)
  · exact (hkeys _ _ _).2 ⟨happart name hname, hforeign (List.mem_append_left _ hname)⟩
  · refine (hkeys _ _ _).2 ⟨fun hmem => ?_, hforeign (List.mem_append_right _ hname)⟩
    exact happart name hmem hname

/-- **A configuration is read back from the object that it is written as, and from every reordering
of that object, members put in that are no fields.** -/
theorem ofDocument_toDocument_perm (c : JobConfig) : ofDocument c.toDocument = .ok c ∧
    ∀ extra ms : Members, (∀ p ∈ extra, p.1 ∉ fieldNames) → ms.Perm (c.members ++ extra) →
      ofDocument (.object ms) = .ok c := by
  have hms : c.members.Perm (c.members ++ []) := by rw [List.append_nil]
  rw [toDocument_eq]
  exact ⟨ofDocument_of_perm_members c (fun p hp => absurd hp List.not_mem_nil) hms,
    fun extra ms hextra hms => ofDocument_of_perm_members c hextra hms⟩

/-- The fields may even come in reverse, after one that nobody knows. -/
theorem ofDocument_toDocument_perm_standard :
    ofDocument (.object (("retries", .int 3) :: standard.members.reverse)) = .ok standard :=
  (ofDocument_toDocument_perm standard).2 [("retries", .int 3)] _ (by simp; decide)
    (((List.reverse_perm _).cons _).trans (List.perm_append_singleton _ _).symm)

end JobConfig

end BatchRun
