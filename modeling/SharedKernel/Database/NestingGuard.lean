import SharedKernel.Database.TxRunner

/-! Whom the guard against nested transactions refuses: every run in the asynchronous extent of
another, also after the other's transaction has ended.
-/

namespace SharedKernel.Database

open Foundation Js

variable {DB R : Type}

-----------------------------------------------------------------------------------------
-- The runs that enclose a context
-----------------------------------------------------------------------------------------

section Enclosing

/-- The client and the context of the transaction that a run has opened. -/
def opening (runs : List (TxRun DB R)) (index : Nat) : Option (DB × Nat) :=
  runs[index]?.bind (fun run => run.transaction.map (fun tx => (tx.client, tx.callback)))

/-- A run has opened a transaction in whose asynchronous extent the context lies. -/
def Encloses (contexts : Forest (Option DB)) (openings : Nat → Option (DB × Nat))
    (index context : Nat) (client : DB)
    : Prop :=
  ∃ callback, openings index = some (client, callback) ∧ contexts.Below callback context

/-- What a context carries is the client of the run that encloses it, and there is one such
run at most.
-/
def Carries (contexts : Forest (Option DB)) (openings : Nat → Option (DB × Nat))
    (context : Nat)
    : Option DB → Prop
  | none => ∀ index client, ¬ Encloses contexts openings index context client
  | some client =>
      ∃ index,
        Encloses contexts openings index context client
        ∧ ∀ other client', Encloses contexts openings other context client' → other = index

/-- All transactions are used in contexts that are there. -/
def CallbacksPresent (contexts : Forest (Option DB)) (openings : Nat → Option (DB × Nat))
    : Prop :=
  ∀ index client callback,
    openings index = some (client, callback) → callback < contexts.length

/-- A new run has opened nothing. -/
theorem opening_snoc (runs : List (TxRun DB R)) {run : TxRun DB R}
    (unopened : run.transaction = none)
    : opening (runs ++ [run]) = opening runs := by
  funext index
  rw [opening, opening, List.getElem?_append]
  split
  · rfl
  · rename_i late
    rw [List.getElem?_eq_none (Nat.le_of_not_lt late), List.getElem?_singleton]
    split <;> simp [unopened]

/-- A run that is found after a replacement is the new one, or was there before. -/
theorem of_getElem?_set {runs : List (TxRun DB R)} {index other : Nat}
    {changed run : TxRun DB R} (found : (runs.set index changed)[other]? = some run)
    : run = changed ∨ runs[other]? = some run := by
  rw [List.getElem?_set] at found
  split at found
  · split at found
    · exact Or.inl (Option.some.inj found).symm
    · cases found
  · exact Or.inr found

/-- Of the openings only that of the run which is replaced can change. -/
theorem opening_set {runs : List (TxRun DB R)} {index : Nat} {run : TxRun DB R}
    (found : runs[index]? = some run) (changed : TxRun DB R)
    : opening (runs.set index changed)
      = fun other =>
        if other = index then changed.transaction.map (fun tx => (tx.client, tx.callback))
        else opening runs other := by
  obtain ⟨bound, _⟩ := List.getElem?_eq_some_iff.mp found
  funext other
  by_cases same : other = index
  · subst same
    simp [opening, bound]
  · simp [opening, same, Ne.symm same]

/-- A run that is replaced by one with the same client and context opens nothing new. -/
theorem opening_set_same {runs : List (TxRun DB R)} {index : Nat} {run changed : TxRun DB R}
    (found : runs[index]? = some run)
    (same
      : changed.transaction.map (fun tx => (tx.client, tx.callback))
        = run.transaction.map (fun tx => (tx.client, tx.callback)))
    : opening (runs.set index changed) = opening runs := by
  rw [opening_set found]
  funext other
  split
  · rename_i here
    subst here
    simp [opening, found, same]
  · rfl

variable {contexts : Forest (Option DB)} {openings : Nat → Option (DB × Nat)}
  {node : Node (Option DB)} {index context : Nat} {client : DB}

/-- A new context changes nothing about who encloses the others. -/
theorem encloses_snoc_old (ordered : contexts.Ordered) (present : context < contexts.length)
    : Encloses (contexts ++ [node]) openings index context client
      ↔ Encloses contexts openings index context client := by
  simp only [Encloses, Forest.below_snoc_old ordered present]

/-- A new context is enclosed by the runs that enclose its parent. -/
theorem encloses_snoc_new (ordered : contexts.Ordered)
    (callbacks : CallbacksPresent contexts openings)
    (present : ∀ parent, node.parent = some parent → parent < contexts.length)
    : Encloses (contexts ++ [node]) openings index contexts.length client
      ↔ ∃ parent, node.parent = some parent ∧ Encloses contexts openings index parent client := by
  simp only [Encloses, Forest.below_snoc_new ordered present]
  constructor
  · intro enclosed
    obtain ⟨callback, opened, same | ⟨parent, child, below⟩⟩ := enclosed
    · exact absurd (callbacks _ _ _ opened) (by omega)
    · exact ⟨parent, child, callback, opened, below⟩
  · intro enclosed
    obtain ⟨parent, child, callback, opened, below⟩ := enclosed
    exact ⟨callback, opened, Or.inr ⟨parent, child, below⟩⟩

/-- The openings once a run has opened a transaction in a context. -/
def opened (openings : Nat → Option (DB × Nat)) (index : Nat) (client : DB) (callback : Nat)
    : Nat → Option (DB × Nat) :=
  fun other => if other = index then some (client, callback) else openings other

/-- A transaction in a new context encloses none of the others. -/
theorem encloses_opened_old {i : Nat} {client' : DB} (ordered : contexts.Ordered)
    (unopened : openings index = none) (present : context < contexts.length)
    : Encloses (contexts ++ [node]) (opened openings index client contexts.length) i context client'
      ↔ Encloses contexts openings i context client' := by
  simp only [Encloses, Forest.below_snoc_old ordered present, opened]
  by_cases own : i = index
  · subst own
    simp only [if_true, unopened]
    constructor
    · intro enclosed
      obtain ⟨callback, opened, below⟩ := enclosed
      cases opened
      exact absurd (below.present ordered present) (Nat.lt_irrefl _)
    · intro enclosed
      obtain ⟨_, absurd, _⟩ := enclosed
      cases absurd
  · simp only [if_neg own]

/-- The new context is enclosed by no other transaction, where its parent is enclosed by none. -/
theorem of_encloses_opened_new {i : Nat} {client' : DB} (ordered : contexts.Ordered)
    (callbacks : CallbacksPresent contexts openings)
    (present : ∀ parent, node.parent = some parent → parent < contexts.length)
    (outside
      : ∀ parent,
          node.parent = some parent
          → ∀ index client, ¬ Encloses contexts openings index parent client)
    (enclosed
      : Encloses (contexts ++ [node]) (opened openings index client contexts.length) i
          contexts.length client')
    : i = index := by
  by_contra own
  obtain ⟨callback, here, below⟩ := enclosed
  simp only [opened, if_neg own] at here
  rcases (Forest.below_snoc_new ordered present).mp below with rfl | ⟨parent, child, under⟩
  · exact absurd (callbacks _ _ _ here) (Nat.lt_irrefl _)
  · exact outside parent child i client' ⟨callback, here, under⟩

/-- What a context carries stays true where the same runs enclose it. -/
theorem Carries.congr {contexts' : Forest (Option DB)} {openings' : Nat → Option (DB × Nat)}
    {context' : Nat} {value : Option DB} (carries : Carries contexts openings context value)
    (same
      : ∀ index client,
          Encloses contexts' openings' index context' client
          ↔ Encloses contexts openings index context client)
    : Carries contexts' openings' context' value := by
  cases value with
  | none => exact fun index client enclosed => carries index client ((same _ _).mp enclosed)
  | some client =>
      obtain ⟨index, enclosed, only⟩ := carries
      exact ⟨index, (same _ _).mpr enclosed,
        fun other client' enclosed' => only other client' ((same _ _).mp enclosed')⟩

end Enclosing

-----------------------------------------------------------------------------------------
-- The invariant
-----------------------------------------------------------------------------------------

/-- How far a run has come that was made in a context carrying the value: it was refused, it
waits for its transaction, or it has settled after the transaction ended.
-/
inductive Progress : Option DB → TxRun DB R → Prop
  | refused (context : Nat) (client : DB) : Progress (some client) (.start context (some client))
  | waiting (context : Nat) (transaction : Option (Transaction DB))
    : Progress none { TxRun.start context none with transaction }
  | settled (context : Nat) (outcome : Except Thrown R) (tx : Transaction DB)
    (ended : tx.status ≠ .active)
    : Progress none
        {
          context
          history :=
            (TxRun.start context none).history
              ++ ⟨.beginTransaction, outcome⟩ :: (turn none (conclude outcome)).1
          rest := (turn none (conclude outcome)).2
          transaction := some tx
        }

/-- What holds in every state: contexts carry the client of the run that encloses them, and
every run has come this far.
-/
structure TxSystem.Sound (system : TxSystem DB R) : Prop where
  ordered : system.contexts.Ordered
  callbacks : CallbacksPresent system.contexts (opening system.runs)
  carries
    : ∀ (context : Nat) (node : Node (Option DB)),
        system.contexts[context]? = some node
        → Carries system.contexts (opening system.runs) context node.value
  progress
    : ∀ (index : Nat) (run : TxRun DB R),
        system.runs[index]? = some run
        → ∃ node : Node (Option DB),
            system.contexts[run.context]? = some node ∧ Progress node.value run

/-- A run that waits for its transaction was made where none is ambient. -/
theorem Progress.of_waiting {value : Option DB} {run : TxRun DB R}
    {resume : Except Thrown R → RunnerProgram DB R R} (progress : Progress value run)
    (waiting : run.rest = .await .beginTransaction resume)
    : value = none
      ∧ resume = conclude
      ∧ run = { TxRun.start run.context none with transaction := run.transaction } := by
  cases progress with
  | refused context client => cases waiting
  | waiting context transaction =>
      cases waiting
      exact ⟨rfl, rfl, rfl⟩
  | settled context outcome tx ended =>
      have last : (turn (none : Option DB) (conclude outcome)).2 = .settle outcome :=
        turn_conclude none outcome
      rw [last] at waiting
      cases outcome <;> cases waiting

/-- A new context that carries what its parent carries, or nothing, keeps the system sound. -/
theorem TxSystem.Sound.grow {system : TxSystem DB R} (sound : system.Sound)
    {node : Node (Option DB)}
    (inherits
      : match node.parent with
        | none => node.value = none
        | some parent => ∃ above, system.contexts[parent]? = some above ∧ node.value = above.value)
    : TxSystem.Sound { system with contexts := system.contexts ++ [node] } := by
  obtain ⟨ordered, callbacks, carries, progress⟩ := sound
  have present : ∀ parent, node.parent = some parent → parent < system.contexts.length := by
    intro parent child
    rw [child] at inherits
    obtain ⟨above, found, _⟩ := inherits
    exact (List.getElem?_eq_some_iff.mp found).1
  refine ⟨ordered.snoc present, ?_, ?_, ?_⟩
  · intro index client callback opened
    rw [List.length_append]
    exact Nat.lt_add_right _ (callbacks _ _ _ opened)
  · intro context other found
    rcases Forest.getElem?_snoc.mp found with old | ⟨rfl, rfl⟩
    · have bound := (List.getElem?_eq_some_iff.mp old).1
      exact (carries context other old).congr (fun _ _ => encloses_snoc_old ordered bound)
    · cases child : node.parent with
      | none =>
          rw [child] at inherits
          rw [inherits]
          intro index client enclosed
          obtain ⟨parent, absurd, _⟩ := (encloses_snoc_new ordered callbacks present).mp enclosed
          cases child.symm.trans absurd
      | some parent =>
          rw [child] at inherits
          obtain ⟨above, found, same⟩ := inherits
          rw [same]
          refine (carries parent above found).congr (fun index client => ?_)
          rw [encloses_snoc_new ordered callbacks present, child]
          simp
  · intro index run found
    obtain ⟨above, inContext, far⟩ := progress index run found
    exact ⟨above, Forest.getElem?_snoc.mpr (Or.inl inContext), far⟩

/-- Replacing a run that opens nothing new, and has come this far, keeps the system sound. -/
theorem TxSystem.Sound.replace {system : TxSystem DB R} (sound : system.Sound) {index : Nat}
    {run changed : TxRun DB R} (found : system.runs[index]? = some run)
    (same
      : changed.transaction.map (fun tx => (tx.client, tx.callback))
        = run.transaction.map (fun tx => (tx.client, tx.callback)))
    (sameContext : changed.context = run.context)
    (far : ∀ value, Progress value run → Progress value changed)
    : TxSystem.Sound { system with runs := system.runs.set index changed } := by
  obtain ⟨ordered, callbacks, carries, progress⟩ := sound
  have kept := opening_set_same found same
  refine ⟨ordered, ?_, ?_, ?_⟩
  · rw [kept]
    exact callbacks
  · rw [kept]
    exact carries
  · intro other found' sought
    rcases of_getElem?_set sought with rfl | old
    · obtain ⟨node, inContext, come⟩ := progress index run found
      exact ⟨node, sameContext ▸ inContext, far _ come⟩
    · exact progress other found' old

/-- Handing a client over keeps the system sound: the new context lies in the extent of this
run only, and no other context does.
-/
theorem TxSystem.Sound.handOver {system : TxSystem DB R} (sound : system.Sound) {index : Nat}
    {run : TxRun DB R} {resume : Except Thrown R → RunnerProgram DB R R} (client : DB)
    (found : system.runs[index]? = some run)
    (waiting : run.rest = .await .beginTransaction resume) (unopened : run.transaction = none)
    : TxSystem.Sound
        {
          contexts := system.contexts ++ [runInsideTransaction run.context client]
          runs :=
            system.runs.set index
              {
                run with
                transaction :=
                  some { client, callback := system.contexts.length, status := .active }
              }
        } := by
  obtain ⟨ordered, callbacks, carries, progress⟩ := sound
  obtain ⟨node, inContext, far⟩ := progress index run found
  obtain ⟨empty, _, form⟩ := far.of_waiting waiting
  have outside := carries run.context node inContext
  rw [empty] at outside
  have bound := (List.getElem?_eq_some_iff.mp inContext).1
  have present : ∀ parent,
      (runInsideTransaction run.context client).parent = some parent
      → parent < system.contexts.length := by
    intro parent child
    cases child
    exact bound
  have unopening : opening system.runs index = none := by
    simp [opening, found, unopened]
  have kept := opening_set found
    {
      run with
      transaction := some { client, callback := system.contexts.length, status := .active }
    }
  refine ⟨ordered.snoc present, ?_, ?_, ?_⟩
  · intro other client' callback opened
    rw [kept] at opened
    rw [List.length_append]
    dsimp only at opened
    split at opened
    · cases opened
      simp
    · exact Nat.lt_add_right _ (callbacks _ _ _ opened)
  · rw [kept]
    intro context other sought
    rcases Forest.getElem?_snoc.mp sought with old | ⟨rfl, rfl⟩
    · have here := (List.getElem?_eq_some_iff.mp old).1
      exact (carries context other old).congr
        (fun _ _ => encloses_opened_old ordered unopening here)
    · refine ⟨index, ⟨system.contexts.length, by simp, .self⟩, fun i client' enclosed => ?_⟩
      refine of_encloses_opened_new ordered callbacks present (fun parent child => ?_) enclosed
      cases child
      exact outside
  · intro other run' sought
    rcases of_getElem?_set sought with rfl | old
    · refine ⟨node, Forest.getElem?_snoc.mpr (Or.inl inContext), ?_⟩
      rw [empty, form]
      exact .waiting _ _
    · obtain ⟨above, there, come⟩ := progress other run' old
      exact ⟨above, Forest.getElem?_snoc.mpr (Or.inl there), come⟩

/-- Every step keeps the system sound, by the kind of step. -/
theorem TxSystem.Sound.step {system next : TxSystem DB R} {label : TxLabel DB R}
    (sound : system.Sound) (taken : TxStep system label next)
    : next.Sound := by
  cases taken with
  | request => exact sound.grow rfl
  | spawn found => exact sound.grow ⟨_, found, rfl⟩
  | @run context node found =>
      obtain ⟨ordered, callbacks, carries, progress⟩ := sound
      have kept : opening (system.runs ++ [TxRun.start context node.value]) = opening system.runs :=
        opening_snoc system.runs rfl
      refine ⟨ordered, ?_, ?_, ?_⟩
      · rw [kept]
        exact callbacks
      · rw [kept]
        exact carries
      · intro index run sought
        rw [List.getElem?_append] at sought
        split at sought
        · exact progress index run sought
        · obtain rfl : TxRun.start context node.value = run :=
            (List.mem_singleton.mp (List.mem_of_getElem? sought)).symm
          refine ⟨node, found, ?_⟩
          cases node.value with
          | none => exact .waiting context none
          | some client => exact .refused context client
  | handOver client found waiting unopened => exact sound.handOver client found waiting unopened
  | @finish index run tx status found opened active ended =>
      refine sound.replace found (by simp [opened]) rfl (fun value come => ?_)
      cases come with
      | refused context client => cases opened
      | waiting context transaction => exact .waiting context _
      | settled context outcome tx' finished =>
          cases opened
          exact absurd active finished
  | @settle index run node resume tx outcome found inContext waiting opened ended =>
      refine sound.replace found rfl rfl (fun value come => ?_)
      obtain ⟨rfl, rfl, form⟩ := come.of_waiting waiting
      obtain ⟨node', inContext', come'⟩ := sound.progress index run found
      obtain rfl := Option.some.inj (inContext.symm.trans inContext')
      obtain ⟨empty, _, _⟩ := come'.of_waiting waiting
      rw [empty, form, opened]
      exact .settled run.context outcome tx ended

/-- Every state that is reached is sound, by induction on the run. -/
theorem reached_sound {labels : List (TxLabel DB R)} {system : TxSystem DB R}
    (run : Execution TxStep .start labels system)
    : system.Sound := by
  refine @Execution.invariant _ _ _ _ _ _ (fun _ system => system.Sound) ?_
    (fun _ _ _ _ sound taken => sound.step taken) run
  refine ⟨fun index node parent found _ => ?_, fun index client callback opened => ?_,
    fun context node found => ?_, fun index run found => ?_⟩
  · cases found
  · cases opened
  · cases found
  · cases found

-----------------------------------------------------------------------------------------
-- The guard
-----------------------------------------------------------------------------------------

/-- The run was refused and opens no transaction; or it calls `beginTransaction` once, and
settles only after its transaction has ended.
-/
def TxRun.Regular (run : TxRun DB R) : Prop :=
  run.Refused ∧ run.transaction = none
  ∨ run.begun = 1
    ∧ ∀ outcome,
        run.rest = .settle outcome → ∃ tx, run.transaction = some tx ∧ tx.status ≠ .active

/-- A run is refused exactly where a transaction is ambient. -/
theorem refused_start_iff (context : Nat) (store : Option DB)
    : (TxRun.start (R := R) context store).Refused ↔ store.isSome = true := by
  simp only [TxRun.Refused, TxRun.begun, TxRun.start, turn_run]
  cases store with
  | none => simp
  | some client => simp

/-- Every run is regular, however far it has come. -/
theorem Progress.regular {value : Option DB} {run : TxRun DB R} (progress : Progress value run)
    : run.Regular := by
  cases progress with
  | refused context client => exact Or.inl ⟨(refused_start_iff context _).mpr rfl, rfl⟩
  | waiting context transaction =>
      refine Or.inr ⟨rfl, fun outcome settled => ?_⟩
      cases outcome <;> cases settled
  | settled context outcome tx ended =>
      refine Or.inr ⟨?_, fun _ _ => ⟨tx, rfl, ended⟩⟩
      cases outcome with
      | ok result => rfl
      | error error => rfl

/-- A run that was not refused was made where no transaction is ambient. -/
theorem Progress.of_admitted {value : Option DB} {run : TxRun DB R} (progress : Progress value run)
    (admitted : ¬ run.Refused)
    : value = none := by
  cases progress with
  | refused context client => exact (admitted ((refused_start_iff context _).mpr rfl)).elim
  | waiting | settled => rfl

/-- A context is enclosed by a run exactly where a run has opened a transaction above it. -/
theorem enclosed_iff (system : TxSystem DB R) (context : Nat)
    : system.Enclosed (fun _ => True) context
      ↔ ∃ index client, Encloses system.contexts (opening system.runs) index context client := by
  constructor
  · intro enclosed
    obtain ⟨index, run, tx, found, opened, _, below⟩ := enclosed
    exact ⟨index, tx.client, tx.callback, by simp [opening, found, opened], below⟩
  · intro enclosed
    obtain ⟨index, client, callback, opened, below⟩ := enclosed
    obtain ⟨run, found, made⟩ := Option.bind_eq_some_iff.mp opened
    obtain ⟨tx, transaction, same⟩ := Option.map_eq_some_iff.mp made
    cases same
    exact ⟨index, run, tx, found, transaction, trivial, below⟩

/-- A value is carried exactly where a run encloses the context. -/
theorem TxSystem.Sound.isSome_iff {system : TxSystem DB R} (sound : system.Sound) {context : Nat}
    {node : Node (Option DB)} (found : system.contexts[context]? = some node)
    : node.value.isSome = true ↔ system.Enclosed (fun _ => True) context := by
  rw [enclosed_iff]
  have carries := sound.carries context node found
  cases value : node.value with
  | none =>
      rw [value] at carries
      refine iff_of_false (by simp) (fun enclosed => ?_)
      obtain ⟨index, client, enclosed⟩ := enclosed
      exact carries index client enclosed
  | some client =>
      rw [value] at carries
      obtain ⟨index, enclosed, _⟩ := carries
      exact iff_of_true rfl ⟨index, client, enclosed⟩

/-- A context lies in the extent of one transaction at most. -/
theorem TxSystem.Sound.one_status {system : TxSystem DB R} (sound : system.Sound) {context : Nat}
    {node : Node (Option DB)} (found : system.contexts[context]? = some node)
    {which other : TxStatus → Prop} (first : system.Enclosed which context)
    (second : system.Enclosed other context)
    : ∃ status, which status ∧ other status := by
  obtain ⟨i, run, tx, there, opened, is, below⟩ := first
  obtain ⟨j, run', tx', there', opened', is', below'⟩ := second
  have encloses
      : Encloses system.contexts (opening system.runs) i context tx.client :=
    ⟨tx.callback, by simp [opening, there, opened], below⟩
  have encloses'
      : Encloses system.contexts (opening system.runs) j context tx'.client :=
    ⟨tx'.callback, by simp [opening, there', opened'], below'⟩
  have carries := sound.carries context node found
  cases value : node.value with
  | none =>
      rw [value] at carries
      exact (carries i _ encloses).elim
  | some client =>
      rw [value] at carries
      obtain ⟨index, _, only⟩ := carries
      obtain rfl : i = j := (only _ _ encloses).trans (only _ _ encloses').symm
      cases there.symm.trans there'
      cases opened.symm.trans opened'
      exact ⟨tx.status, is, is'⟩

/-- What the guard achieves. Every run is regular. A run that is made is refused exactly where
it lies in the extent of a run whose transaction is still open, if and only if it does not lie
in the extent of one whose transaction has ended; outside all extents it is not refused, and
neither is a retry of a run that was not. Witness: a context carries a client exactly where a
run encloses it, and at most one run does.
-/
theorem nesting_guard {labels : List (TxLabel DB R)} {system : TxSystem DB R}
    (run : Execution TxStep .start labels system)
    : (∀ made ∈ system.runs, made.Regular)
      ∧ ∀ context next,
          TxStep system (.run context) next
          → ∃ made,
              next.runs = system.runs ++ [made]
              ∧ made.context = context
              ∧ ((made.Refused ↔ system.Enclosed (· = .active) context)
                ↔ ¬ system.Enclosed (· ≠ .active) context)
              ∧ (¬ system.Enclosed (fun _ => True) context → ¬ made.Refused)
              ∧ ∀ earlier ∈ system.runs,
                  earlier.context = context → ¬ earlier.Refused → ¬ made.Refused := by
  have sound := reached_sound run
  constructor
  · intro made member
    obtain ⟨index, found⟩ := List.mem_iff_getElem?.mp member
    obtain ⟨node, _, progress⟩ := sound.progress index made found
    exact progress.regular
  · intro context next taken
    cases taken with
    | @run _ node found =>
        have refused_iff := (refused_start_iff (R := R) context node.value).trans
          (sound.isSome_iff found)
        refine ⟨.start context node.value, rfl, rfl, ⟨?_, ?_⟩, ?_, ?_⟩
        · intro agrees finished
          have refused := refused_iff.mpr (finished.mono (fun _ _ => trivial))
          obtain ⟨status, ended, active⟩ := sound.one_status found finished (agrees.mp refused)
          exact ended active
        · intro inTime
          rw [refused_iff]
          refine ⟨fun enclosed => ?_, fun enclosed => enclosed.mono (fun _ _ => trivial)⟩
          obtain ⟨index, run, tx, there, opened, _, below⟩ := enclosed
          by_cases active : tx.status = .active
          · exact ⟨index, run, tx, there, opened, active, below⟩
          · exact (inTime ⟨index, run, tx, there, opened, active, below⟩).elim
        · intro outside refused
          exact outside (refused_iff.mp refused)
        · intro earlier member same admitted refused
          obtain ⟨index, there⟩ := List.mem_iff_getElem?.mp member
          obtain ⟨node', inContext, progress⟩ := sound.progress index earlier there
          rw [same] at inContext
          cases found.symm.trans inContext
          rw [refused_start_iff, progress.of_admitted admitted] at refused
          cases refused

-- A request starts work inside a transaction and does not wait for it.

/-- The first steps: a request, a run in it, the work of the run, and what that starts. -/
def detachedLabels : List (TxLabel Unit Unit) :=
  [.request, .run 0, .handOver 0 (), .spawn 1]

/-- The transaction of the run, and the run. -/
def detachedTransaction (status : TxStatus) : Transaction Unit :=
  { client := (), callback := 1, status }

def detachedRun (status : TxStatus) : TxRun Unit Unit :=
  { TxRun.start 0 none with transaction := some (detachedTransaction status) }

/-- The state after them. -/
def detachedSystem (status : TxStatus) : TxSystem Unit Unit where
  contexts :=
    [
      { parent := none, value := none },
      { parent := some 0, value := some () },
      { parent := some 1, value := some () }
    ]
  runs := [detachedRun status]

theorem detachedLabels_execution
    : Execution TxStep .start detachedLabels (detachedSystem .active) :=
  .snoc
    (.snoc (.snoc (.snoc .start .request) (.run rfl)) (.handOver () rfl rfl rfl))
    (@TxStep.spawn Unit Unit _ 1 (runInsideTransaction 0 ()) rfl)

/-- What the work has started calls `run` while the transaction is open, and is refused. -/
theorem nesting_guard_nested
    : ∃ next made,
        TxStep (detachedSystem .active) (.run 2) next
        ∧ next.runs = (detachedSystem .active).runs ++ [made]
        ∧ made.Refused := by
  have below : (detachedSystem .active).contexts.Below 1 2 := .child rfl rfl .self
  have step : TxStep (detachedSystem .active) (.run 2) _ := .run rfl
  obtain ⟨made, added, _, guarded, _⟩ := (nesting_guard detachedLabels_execution).2 2 _ step
  refine ⟨_, made, step, added, (guarded.mpr ?_).mpr ⟨0, _, _, rfl, rfl, rfl, below⟩⟩
  intro finished
  obtain ⟨index, run, tx, found, opened, ended, _⟩ := finished
  obtain rfl := List.mem_singleton.mp (List.mem_of_getElem? found)
  cases opened
  exact ended rfl

/-- It calls `run` after the transaction has committed, and is refused although no transaction
is open: what AsyncLocalStorage carries outlives the transaction.
-/
theorem nesting_guard_detached
    : ¬ ∀ (labels : List (TxLabel Unit Unit)) (system : TxSystem Unit Unit),
          Execution TxStep .start labels system
          → ∀ context next,
              TxStep system (.run context) next
              → ∃ made,
                  next.runs = system.runs ++ [made]
                  ∧ (made.Refused ↔ system.Enclosed (· = .active) context) := by
  intro claimed
  have run : Execution TxStep .start (detachedLabels ++ [.finish 0 .committed])
      (detachedSystem .committed) :=
    detachedLabels_execution.snoc
      (@TxStep.finish Unit Unit _ 0 (detachedRun .active) (detachedTransaction .active) .committed
        rfl rfl rfl (by decide))
  obtain ⟨made, added, guarded⟩ := claimed _ _ run 2 _ (.run rfl)
  obtain rfl : TxRun.start 2 (some ()) = made := by
    simpa using added
  obtain ⟨index, run, tx, found, opened, active, _⟩ :=
    guarded.mp ((refused_start_iff 2 _).mpr rfl)
  obtain rfl := List.mem_singleton.mp (List.mem_of_getElem? found)
  cases opened
  cases active

end SharedKernel.Database
