import SharedKernel.Grpc.PermissionIntegrity

/-! Whether a check tells its caller what the authority has just answered: always, unless it
goes by a cached membership that the authority no longer confirms.
-/

namespace SharedKernel.Grpc

open Foundation Js Cache

/-- A check that the authority responds to, whatever the store does, answers that response
exactly where the response confirms the membership entries it has read; witness: the ways a
check can end.
-/
theorem checkMembership_answersFresh_iff (check : MembershipCall) {σ : Type}
    (answer : σ → (op : MembershipOp) → op.Reply × σ) (state : σ)
    {events : List MembershipEvent} {outcome : Except Thrown MembershipCheckResult} {last : σ}
    (ran
      : execute (F := MembershipEffects) answer state check.program = (events, outcome, last))
    {response : MembershipRpcResult} (responded : Responded check events response)
    : outcome = .ok (answerOf response)
      ↔ ∀ cached, Cached check events cached → response.isMember = true := by
  have run := execute_finishes (F := MembershipEffects) answer state check.program
  rw [ran] at run
  cases finishes_checkMembership run with
  | fetched fetched uncached only =>
      obtain rfl := (only response).mp responded
      exact iff_of_true rfl (fun cached found => (uncached cached found).elim)
  | denied _ _ _ silent | served _ _ _ _ _ _ _ silent | failed _ _ silent =>
      exact (silent response responded).elim
  | refreshed membership fetched cached member only =>
      obtain rfl := (only response).mp responded
      cases confirmed : response.isMember with
      | true =>
          refine iff_of_true ?_ (fun _ _ => rfl)
          simp [answerOf, confirmed]
      | false =>
          refine iff_of_false ?_ (fun confirms => by cases confirms membership cached)
          simp [answerOf, confirmed]

/-- A store without entries before an authority that responds, and takes every write. -/
def coldEnvironment (response : MembershipRpcResult) (_ : Unit)
    : (op : MembershipOp) → op.Reply × Unit
  | .get _ => (.ok none, ())
  | .set _ _ _ => (.ok (), ())
  | .checkMembership _ _ => (.ok response, ())

/-- A check that finds nothing in the store answers the response. -/
theorem checkMembership_answersFresh_iff_cold
    : (execute (F := MembershipEffects) (coldEnvironment adminResponse) ()
          sampleCheck.program).2.1
        = .ok (answerOf adminResponse) := by
  have ran : execute (F := MembershipEffects) (coldEnvironment adminResponse) ()
      sampleCheck.program = (coldEvents, .ok (answerOf adminResponse), ()) := by
    refine execute_of_finishes coldEvents_run ?_
    intro event member
    simp only [coldEvents, List.mem_cons, List.not_mem_nil, or_false] at member
    rcases member with rfl | rfl | rfl | rfl <;> rfl
  have responded : Responded sampleCheck coldEvents adminResponse := by
    simp [Responded, coldEvents, sampleCheck]
  have fresh := checkMembership_answersFresh_iff sampleCheck (coldEnvironment adminResponse) ()
    ran responded
  exact (congrArg (fun ended => ended.2.1) ran).trans (fresh.mpr (fun _ _ => rfl))

/-- The authority no longer knows the user. -/
def strangerResponse : MembershipRpcResult :=
  { isMember := false, permissions := [], role := "" }

/-- A store that holds the membership entry of an ADMIN and no permissions, before an authority
that no longer knows the user.
-/
def revokedEnvironment (_ : Unit) : (op : MembershipOp) → op.Reply × Unit
  | .get key =>
      (.ok (if key = CacheKeys.membership "org-1" "user-1" then
        some (stringifyMembership adminEntry) else none), ())
  | .set _ _ _ => (.ok (), ())
  | .checkMembership _ _ => (.ok strangerResponse, ())

/-- The calls of the check there. -/
def revokedEvents : List MembershipEvent :=
  [
    ⟨.get (CacheKeys.membership "org-1" "user-1"), .ok (some (stringifyMembership adminEntry))⟩,
    ⟨.get (CacheKeys.orgPermissions "org-1" "ADMIN"), .ok none⟩,
    ⟨.checkMembership "org-1" "user-1", .ok strangerResponse⟩,
    ⟨.set (CacheKeys.orgPermissions "org-1" "ADMIN")
        (stringifyPermissions strangerResponse.permissions) DEFAULT_CACHE_TTL_MS,
      .ok ()⟩
  ]

theorem revokedEvents_run
    : Run sampleCheck.program revokedEvents (.done { isMember := true, permissions := [] }) := by
  refine .step _ ?_
  simp only [Program.settle, MembershipVerifier.membershipLookup, Program.done_bind,
    parse_adminEntry, Option.map]
  exact .step _ (.step _ (.step _ (.refl _)))

/-- A cached membership overrides the response of the authority that the user is no member:
the second path to the authority reads the permissions of a response only.
-/
theorem checkMembership_staleWins
    : ¬ ∀ (check : MembershipCall) (σ : Type)
          (answer : σ → (op : MembershipOp) → op.Reply × σ) (state : σ)
          (events : List MembershipEvent) (outcome : Except Thrown MembershipCheckResult)
          (last : σ) (response : MembershipRpcResult),
          execute (F := MembershipEffects) answer state check.program = (events, outcome, last)
          → Responded check events response
          → outcome = .ok (answerOf response) := by
  intro claimed
  have different := CacheKeys.membership_ne_orgPermissions "org-1" "user-1" "org-1" "ADMIN"
  have ran : execute (F := MembershipEffects) revokedEnvironment () sampleCheck.program
      = (revokedEvents, .ok { isMember := true, permissions := [] }, ()) := by
    refine execute_of_finishes revokedEvents_run ?_
    intro event member
    simp only [revokedEvents, List.mem_cons, List.not_mem_nil, or_false] at member
    rcases member with rfl | rfl | rfl | rfl <;> simp [revokedEnvironment, different.symm]
  have fresh := claimed sampleCheck Unit revokedEnvironment () _ _ _ strangerResponse ran
    (by simp [Responded, revokedEvents, sampleCheck])
  simp [answerOf, strangerResponse] at fresh

end SharedKernel.Grpc
