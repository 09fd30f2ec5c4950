import Mathlib.Data.List.Basic

/-! The registry of cache keys. Composite keys join their parts by NUL, which no id contains,
so the parts can be read back from the key.
-/

namespace SharedKernel.Cache

/-- Separator inside a composite key. -/
def separator : Char := '\u0000'

/-- The string has no separator in it. -/
def NulFree (text : String) : Prop :=
  separator ∉ text.toList

instance (text : String) : Decidable (NulFree text) :=
  inferInstanceAs (Decidable (_ ∉ _))

namespace CacheNamespaces

def membership : String := "membership"
def orgPermissions : String := "org-permissions"
def systemPermissions : String := "system-permissions"

end CacheNamespaces

/-- A key of two parts in a namespace. -/
def compositeKey (space first second : String) : String :=
  space ++ ":" ++ first ++ String.singleton separator ++ second

namespace CacheKeys

/-- Whether a user belongs to an organisation, and with which role. -/
def membership (orgId userId : String) : String :=
  compositeKey CacheNamespaces.membership orgId userId

/-- The permission set of one role in one organisation. -/
def orgPermissions (orgId role : String) : String :=
  compositeKey CacheNamespaces.orgPermissions orgId role

/-- The system permissions of a user. -/
def systemPermissions (userId : String) : String :=
  CacheNamespaces.systemPermissions ++ ":" ++ userId

end CacheKeys

theorem toList_compositeKey (space first second : String)
    : (compositeKey space first second).toList
      = space.toList ++ ':' :: (first.toList ++ separator :: second.toList) := by
  simp [compositeKey, String.toList_append]

/-- The first part ends at the first separator. -/
theorem takeWhile_nulFree {first : String} (clean : NulFree first) (rest : List Char)
    : (first.toList ++ separator :: rest).takeWhile (· ≠ separator) = first.toList := by
  rw [List.takeWhile_append_of_pos]
  · simp
  · intro char member
    have different : char ≠ separator := fun same => clean (same ▸ member)
    simpa using different

/-- The parts of a key are read back from it where the first has no separator; witness: the
first separator ends the first part.
-/
theorem compositeKey_eq_iff {space first first' second second' : String}
    (clean : NulFree first) (clean' : NulFree first')
    : compositeKey space first second = compositeKey space first' second'
      ↔ first = first' ∧ second = second' := by
  constructor
  · intro same
    have chars := congrArg String.toList same
    rw [toList_compositeKey, toList_compositeKey] at chars
    have parts : first.toList ++ separator :: second.toList
        = first'.toList ++ separator :: second'.toList :=
      (List.cons.inj (List.append_cancel_left chars)).2
    have heads : first = first' := by
      have ends := congrArg (List.takeWhile (· ≠ separator)) parts
      rw [takeWhile_nulFree clean, takeWhile_nulFree clean'] at ends
      exact String.toList_inj.mp ends
    subst heads
    have tails := (List.cons.inj (List.append_cancel_left parts)).2
    exact ⟨rfl, String.toList_inj.mp tails⟩
  · intro same
    obtain ⟨rfl, rfl⟩ := same
    rfl

/-- A membership key is no permission key: their namespaces start with different letters. -/
theorem CacheKeys.membership_ne_orgPermissions (orgId userId orgId' role : String)
    : membership orgId userId ≠ orgPermissions orgId' role := by
  intro same
  have chars := congrArg String.toList same
  simp only [membership, orgPermissions, toList_compositeKey] at chars
  have heads := congrArg List.head? chars
  simp [CacheNamespaces.membership, CacheNamespaces.orgPermissions] at heads

end SharedKernel.Cache
