import SharedKernel.Cache.CacheKeys

/-! Whom a cache entry is for, and why the key tells: the namespace ends at the first colon of
the key, the first part of a composite key at the first separator.
-/

namespace SharedKernel.Cache

/-- The families of keys. -/
inductive KeyFamily where
  | membership
  | orgPermissions
  | systemPermissions
deriving DecidableEq

/-- The namespace of a family. -/
def KeyFamily.space : KeyFamily → String
  | membership => CacheNamespaces.membership
  | orgPermissions => CacheNamespaces.orgPermissions
  | systemPermissions => CacheNamespaces.systemPermissions

/-- Whom an entry is for, by family. -/
inductive CacheOwner where
  | membership (orgId userId : String)
  | orgPermissions (orgId role : String)
  | systemPermissions (userId : String)
deriving DecidableEq

namespace CacheOwner

def family : CacheOwner → KeyFamily
  | membership _ _ => .membership
  | orgPermissions _ _ => .orgPermissions
  | systemPermissions _ => .systemPermissions

/-- The key of an entry. -/
def key : CacheOwner → String
  | membership orgId userId => CacheKeys.membership orgId userId
  | orgPermissions orgId role => CacheKeys.orgPermissions orgId role
  | systemPermissions userId => CacheKeys.systemPermissions userId

/-- The organisation, where there is one, has no separator in it. -/
def Clean : CacheOwner → Prop
  | membership orgId _ | orgPermissions orgId _ => NulFree orgId
  | systemPermissions _ => True

/-- A key is its namespace, a colon and the rest. -/
theorem toList_key (owner : CacheOwner)
    : ∃ rest, owner.key.toList = owner.family.space.toList ++ ':' :: rest := by
  cases owner with
  | membership orgId userId => exact ⟨_, toList_compositeKey ..⟩
  | orgPermissions orgId role => exact ⟨_, toList_compositeKey ..⟩
  | systemPermissions userId =>
      exact ⟨userId.toList, by
        simp [key, family, KeyFamily.space, CacheKeys.systemPermissions, String.toList_append]⟩

end CacheOwner

/-- No namespace has a colon in it. -/
theorem KeyFamily.colon_not_mem (family : KeyFamily) : ':' ∉ family.space.toList := by
  cases family <;> decide

/-- Families have different namespaces. -/
theorem KeyFamily.space_inj {family other : KeyFamily} (same : family.space = other.space)
    : family = other := by
  revert same
  cases family <;> cases other <;> decide

/-- The namespace of a key is what stands before its first colon. -/
theorem CacheOwner.takeWhile_key (owner : CacheOwner)
    : owner.key.toList.takeWhile (· ≠ ':') = owner.family.space.toList := by
  obtain ⟨rest, chars⟩ := owner.toList_key
  rw [chars, List.takeWhile_append_of_pos]
  · simp
  · intro char member
    have different : char ≠ ':' := fun same => owner.family.colon_not_mem (same ▸ member)
    simpa using different

/-- A key tells its family, for all strings. -/
theorem CacheOwner.family_eq {owner other : CacheOwner} (same : owner.key = other.key)
    : owner.family = other.family := by
  apply KeyFamily.space_inj
  rw [← String.toList_inj, ← owner.takeWhile_key, ← other.takeWhile_key, same]

/-- A key tells whom its entry is for; witness: it tells the family, and the parts are read
back within each.
-/
theorem CacheOwner.key_inj {owner other : CacheOwner} (clean : owner.Clean)
    (clean' : other.Clean) (same : owner.key = other.key)
    : owner = other := by
  have families := family_eq same
  cases owner with
  | membership orgId userId =>
      cases other with
      | membership orgId' userId' =>
          obtain ⟨rfl, rfl⟩ := (compositeKey_eq_iff clean clean').mp same
          rfl
      | orgPermissions | systemPermissions => cases families
  | orgPermissions orgId role =>
      cases other with
      | orgPermissions orgId' role' =>
          obtain ⟨rfl, rfl⟩ := (compositeKey_eq_iff clean clean').mp same
          rfl
      | membership | systemPermissions => cases families
  | systemPermissions userId =>
      cases other with
      | systemPermissions userId' =>
          have users : userId = userId' := by
            simpa [key, CacheKeys.systemPermissions, String.append_right_inj] using same
          rw [users]
      | membership | orgPermissions => cases families

/-- No key is a prefix of a namespace: it has a colon in it. -/
theorem CacheOwner.key_not_prefix (owner : CacheOwner) (family : KeyFamily)
    : ¬ owner.key.toList <+: family.space.toList := by
  intro starts
  obtain ⟨rest, chars⟩ := owner.toList_key
  apply family.colon_not_mem
  apply starts.subset
  simp [chars]

/-- Keys are unambiguous. -/
structure KeysUnambiguous : Prop where
  /-- The organisation of a membership key may not contain the separator; the user may. -/
  membership
    : ∀ orgId userId orgId' userId',
        NulFree orgId
        → NulFree orgId'
        → CacheKeys.membership orgId userId = CacheKeys.membership orgId' userId'
        → orgId = orgId' ∧ userId = userId'
  orgPermissions
    : ∀ orgId role orgId' role',
        NulFree orgId
        → NulFree orgId'
        → CacheKeys.orgPermissions orgId role = CacheKeys.orgPermissions orgId' role'
        → orgId = orgId' ∧ role = role'
  systemPermissions : Function.Injective CacheKeys.systemPermissions
  /-- The families share no key, for all strings. -/
  disjoint : ∀ owner other : CacheOwner, owner.family ≠ other.family → owner.key ≠ other.key
  namespaces
    : ∀ (owner : CacheOwner) (family : KeyFamily),
        owner.family ≠ family → ¬ owner.key.toList <+: family.space.toList

/-- The keys of the registry are unambiguous. -/
theorem keys_unambiguous : KeysUnambiguous where
  membership _ _ _ _ clean clean' same := (compositeKey_eq_iff clean clean').mp same
  orgPermissions _ _ _ _ clean clean' same := (compositeKey_eq_iff clean clean').mp same
  systemPermissions userId userId' same := by
    have owners : CacheOwner.systemPermissions userId = .systemPermissions userId' :=
      CacheOwner.key_inj trivial trivial same
    exact CacheOwner.systemPermissions.inj owners
  disjoint _ _ different same := different (CacheOwner.family_eq same)
  namespaces owner family _ := owner.key_not_prefix family

end SharedKernel.Cache
