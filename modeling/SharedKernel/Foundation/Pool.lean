import Mathlib.Algebra.GroupWithZero.Nat
import SharedKernel.Foundation.Run
import SharedKernel.Foundation.Transition

/-! Programs interleaved over a shared world: calls start at any time, each awaited operation
is answered by the world as it is then, and the world also moves on its own.
-/

namespace Foundation

/-- A call under way: what was called, the operations it has had answered, the rest. -/
structure Thread (F : Signature) (ε α κ : Type) where
  call : κ
  history : List (Event F)
  rest : Program F ε α

/-- The calls started so far, in order, and the world they share. -/
structure Pool (F : Signature) (ε α κ ω : Type) where
  threads : List (Thread F ε α κ)
  world : ω

/-- A call starts, a thread has its operation answered, or the world moves. -/
inductive PoolLabel (F : Signature) (κ : Type) where
  | start (call : κ)
  | answer (thread : Nat) (event : Event F)
  | drift

/-- The world answers the operations of one thread, one after another. -/
inductive Answered {F : Signature} {ω : Type} (answers : ω → Event F → ω → Prop)
    : ω → List (Event F) → ω → Prop
  | nil (world : ω) : Answered answers world [] world
  | cons {world event between events last} (first : answers world event between)
    (rest : Answered answers between events last)
    : Answered answers world (event :: events) last

section Pool

variable {F : Signature} {ε α κ ω : Type} {program : κ → Program F ε α}
  {admitted : κ → Prop} {answers : ω → Event F → ω → Prop} {drifts : ω → ω → Prop}

/-- The steps of a pool: `admitted` calls run `program`, `answers` says how the world may
answer an operation, `drifts` how it may move.
-/
inductive PoolStep (program : κ → Program F ε α) (admitted : κ → Prop)
    (answers : ω → Event F → ω → Prop) (drifts : ω → ω → Prop)
    : Pool F ε α κ ω → PoolLabel F κ → Pool F ε α κ ω → Prop
  | start {pool} (call : κ) (admits : admitted call)
    : PoolStep program admitted answers drifts pool (.start call)
        { pool with threads := pool.threads ++ [{ call, history := [], rest := program call }] }
  | answer {pool index call history op resume world} (reply : F.Reply op)
    (waiting : pool.threads[index]? = some { call, history, rest := .await op resume })
    (answered : answers pool.world ⟨op, reply⟩ world)
    : PoolStep program admitted answers drifts pool (.answer index ⟨op, reply⟩)
        {
          threads :=
            pool.threads.set index
              { call, history := history ++ [⟨op, reply⟩], rest := resume reply }
          world
        }
  | drift {pool world} (moved : drifts pool.world world)
    : PoolStep program admitted answers drifts pool .drift { pool with world }

/-- A pool before its first call. -/
def Pool.start (world : ω) : Pool F ε α κ ω :=
  { threads := [], world }

/-- The calls started, in order. -/
def callsStarted (labels : List (PoolLabel F κ)) : List κ :=
  labels.filterMap fun
    | .start call => some call
    | _ => none

/-- The operations one thread has had answered, in order. -/
def answersOf (index : Nat) (labels : List (PoolLabel F κ)) : List (Event F) :=
  labels.filterMap fun
    | .answer thread event => if thread = index then some event else none
    | _ => none

@[simp] theorem callsStarted_append (head tail : List (PoolLabel F κ))
    : callsStarted (head ++ tail) = callsStarted head ++ callsStarted tail :=
  List.filterMap_append

@[simp] theorem answersOf_append (index : Nat) (head tail : List (PoolLabel F κ))
    : answersOf index (head ++ tail) = answersOf index head ++ answersOf index tail :=
  List.filterMap_append

/-- An answered operation is among the labels. -/
theorem mem_answersOf {index : Nat} {labels : List (PoolLabel F κ)} {event : Event F}
    : event ∈ answersOf index labels ↔ .answer index event ∈ labels := by
  simp only [answersOf, List.mem_filterMap]
  constructor
  · intro found
    obtain ⟨label, member, same⟩ := found
    cases label with
    | answer thread other =>
        by_cases own : thread = index
        · obtain rfl : other = event := by simpa [own] using same
          rwa [own] at member
        · simp [own] at same
    | start | drift => simp at same
  · intro member
    exact ⟨_, member, by simp⟩

/-- A thread runs its own program, on the operations the labels say it has had answered. -/
structure Thread.Sound (program : κ → Program F ε α) (admitted : κ → Prop)
    (labels : List (PoolLabel F κ)) (index : Nat) (thread : Thread F ε α κ)
    : Prop where
  admits : admitted thread.call
  started : (callsStarted labels)[index]? = some thread.call
  answered : thread.history = answersOf index labels
  run : Run (program thread.call) thread.history thread.rest

/-- Every thread of a pool is sound, and there is one for each call. -/
structure Pool.Sound (program : κ → Program F ε α) (admitted : κ → Prop)
    (labels : List (PoolLabel F κ)) (pool : Pool F ε α κ ω)
    : Prop where
  count : pool.threads.length = (callsStarted labels).length
  silent : ∀ index, pool.threads.length ≤ index → answersOf index labels = []
  threads
    : ∀ (index : Nat) (thread : Thread F ε α κ),
        pool.threads[index]? = some thread → thread.Sound program admitted labels index

/-- A label that is not an answer to a thread, nor starts a call, keeps the thread sound. -/
theorem Thread.Sound.other {labels : List (PoolLabel F κ)} {index : Nat}
    {thread : Thread F ε α κ} (sound : thread.Sound program admitted labels index)
    {label : PoolLabel F κ} (quiet : answersOf index [label] = [])
    : thread.Sound program admitted (labels ++ [label]) index := by
  refine ⟨sound.admits, ?_, ?_, sound.run⟩
  · obtain ⟨bound, _⟩ := List.getElem?_eq_some_iff.mp sound.started
    rw [callsStarted_append, List.getElem?_append_left bound]
    exact sound.started
  · rw [answersOf_append, quiet, List.append_nil]
    exact sound.answered

/-- Every step keeps a pool sound, by the kind of step. -/
theorem Pool.Sound.step {labels : List (PoolLabel F κ)} {pool next : Pool F ε α κ ω}
    {label : PoolLabel F κ} (sound : pool.Sound program admitted labels)
    (taken : PoolStep program admitted answers drifts pool label next)
    : next.Sound program admitted (labels ++ [label]) := by
  obtain ⟨count, silent, threads⟩ := sound
  cases taken with
  | start call admits =>
      refine ⟨by simp [count, callsStarted], fun index late => ?_, fun index thread found => ?_⟩
      · have past : pool.threads.length ≤ index := by
          simp only [List.length_append, List.length_singleton] at late
          omega
        simpa [answersOf] using silent index past
      · rw [List.getElem?_append] at found
        split at found
        · exact (threads index thread found).other rfl
        · rename_i late
          have last : index - pool.threads.length = 0 := by
            obtain ⟨bound, _⟩ := List.getElem?_eq_some_iff.mp found
            simpa using bound
          have here : index = (callsStarted labels).length := by omega
          have fresh : answersOf index labels = [] := silent index (by omega)
          obtain rfl : { call, history := [], rest := program call } = thread := by
            simpa [last] using found
          refine ⟨admits, ?_, ?_, .refl _⟩
          · simp [here, callsStarted]
          · rw [answersOf_append, fresh]
            rfl
  | @answer index call history op resume world reply waiting answered =>
      obtain ⟨bound, _⟩ := List.getElem?_eq_some_iff.mp waiting
      refine ⟨by simpa [callsStarted] using count, fun other late => ?_,
        fun other thread found => ?_⟩
      · have past : pool.threads.length ≤ other := by simpa using late
        have distinct : index ≠ other := by omega
        simpa [answersOf, distinct] using silent other past
      · have own := threads index _ waiting
        by_cases same : index = other
        · subst same
          obtain rfl
              : { call, history := history ++ [⟨op, reply⟩], rest := resume reply } = thread := by
            simpa [List.getElem?_set, bound] using found
          refine ⟨own.admits, by simpa [callsStarted] using own.started, ?_, own.run.snoc reply⟩
          have answered : history = answersOf index labels := own.answered
          simp [answersOf, answered]
        · have untouched : pool.threads[other]? = some thread := by
            simpa [List.getElem?_set, same] using found
          exact (threads other thread untouched).other (by simp [answersOf, same])
  | drift moved =>
      refine ⟨by simpa [callsStarted] using count, fun index late => ?_,
        fun index thread found => (threads index thread found).other rfl⟩
      simpa [answersOf] using silent index late

/-- In every reachable pool every thread is sound: interleaving changes nothing about what
one call does.
-/
theorem Pool.sound {world : ω} {labels : List (PoolLabel F κ)} {pool : Pool F ε α κ ω}
    (run : Execution (PoolStep program admitted answers drifts) (.start world) labels pool)
    : pool.Sound program admitted labels := by
  refine run.invariant ?_ (fun _ _ _ _ sound taken => sound.step taken)
  exact ⟨rfl, fun _ _ => rfl, fun index thread found => by simp [Pool.start] at found⟩

/-- A law that concerns answers to threads: of the call, its history and the event. -/
def Threadwise (law : κ → List (Event F) → Event F → Prop) (before : List (PoolLabel F κ))
    (label : PoolLabel F κ)
    : Prop :=
  ∀ index event call,
    label = .answer index event
    → (callsStarted before)[index]? = some call
    → law call (answersOf index before) event

/-- A law of the answers to threads is a law of each thread's history, by induction on the
run.
-/
theorem Pool.histories {world : ω} {labels : List (PoolLabel F κ)} {pool : Pool F ε α κ ω}
    {law : κ → List (Event F) → Event F → Prop}
    (run : Execution (PoolStep program admitted answers drifts) (.start world) labels pool)
    (holds : Throughout (Threadwise law) labels)
    : ∀ (index : Nat) (thread : Thread F ε α κ),
        pool.threads[index]? = some thread → Throughout (law thread.call) thread.history := by
  induction run with
  | start =>
      intro index thread found
      simp [Pool.start] at found
  | @snoc labels pool label next earlier taken ih =>
      obtain ⟨past, now⟩ := (throughout_snoc ..).mp holds
      have histories := ih past
      intro index thread found
      cases taken with
      | start call admits =>
          rw [List.getElem?_append] at found
          split at found
          · exact histories index thread found
          · obtain rfl : { call, history := [], rest := program call } = thread :=
              List.mem_singleton.mp (List.mem_of_getElem? found) |>.symm
            exact throughout_nil _
      | @answer answered call history op resume world' reply waiting _ =>
          by_cases same : answered = index
          · subst same
            obtain ⟨bound, _⟩ := List.getElem?_eq_some_iff.mp waiting
            obtain rfl
                : { call, history := history ++ [⟨op, reply⟩], rest := resume reply } = thread := by
              simpa [List.getElem?_set, bound] using found
            have own := (Pool.sound earlier).threads answered _ waiting
            have lawful := now answered ⟨op, reply⟩ call rfl own.started
            rw [← own.answered] at lawful
            exact (throughout_snoc ..).mpr ⟨histories answered _ waiting, lawful⟩
          · apply histories index thread
            simpa [List.getElem?_set, same] using found
      | drift moved => exact histories index thread found

/-- Where every admitted call is verified under an assumption about the answers it gets, a
pool whose answers meet the assumption keeps the guards of all its calls; witness: the
answered thread is sound and awaited the operation, by induction on the run.
-/
theorem Pool.throughout {world : ω} {labels : List (PoolLabel F κ)} {pool : Pool F ε α κ ω}
    {assumed : κ → List (Event F) → Event F → Prop}
    {guard : κ → List (Event F) → F.Op → Prop}
    (safe
      : ∀ call,
          admitted call
          → Safe (fun history op => Throughout (assumed call) history → guard call history op)
              (fun _ _ => True) [] (program call))
    (run : Execution (PoolStep program admitted answers drifts) (.start world) labels pool)
    (assumption : Throughout (Threadwise assumed) labels)
    : Throughout
        (fun before label =>
          ∀ index event,
            label = .answer index event
            → ∃ call,
                (callsStarted before)[index]? = some call
                ∧ guard call (answersOf index before) event.op)
        labels := by
  induction run with
  | start => exact throughout_nil _
  | @snoc labels pool label next earlier taken ih =>
      obtain ⟨past, _⟩ := (throughout_snoc ..).mp assumption
      rw [throughout_snoc]
      refine ⟨ih past, ?_⟩
      intro index event same
      subst same
      cases taken with
      | @answer _ call history op resume world' reply waiting answered =>
          have own := (Pool.sound earlier).threads index _ waiting
          have awaiting := (safe call own.admits).guarded own.run
          have lawful := Pool.histories earlier past index _ waiting
          have seen : history = answersOf index labels := own.answered
          rw [← seen]
          exact ⟨call, own.started, awaiting lawful⟩

/-- Lists that correspond element by element correspond around any element, by induction on
the correspondence.
-/
theorem forall₂_split {γ δ : Type} {related : γ → δ → Prop} {left : List γ} {right : List δ}
    (all : List.Forall₂ related left right) {index : Nat} {one : γ}
    (found : left[index]? = some one)
    : ∃ before after before' other after',
        left = before ++ one :: after
        ∧ before.length = index
        ∧ right = before' ++ other :: after'
        ∧ List.Forall₂ related before before'
        ∧ related one other
        ∧ List.Forall₂ related after after' := by
  induction all generalizing index with
  | nil => simp at found
  | @cons first second rest others here later ih =>
      cases index with
      | zero =>
          obtain rfl : first = one := by simpa using found
          exact ⟨[], rest, [], second, others, rfl, rfl, rfl, .nil, here, later⟩
      | succ index =>
          obtain ⟨before, after, before', other, after', rfl, length, rfl, early, now, late⟩ :=
            @ih index (by simpa using found)
          exact ⟨first :: before, after, second :: before', other, after', rfl,
            by simp [length], rfl, .cons here early, now, late⟩

/-- One thread runs on while the others wait: its run, answered by the world step after step,
is an execution of the pool; witness: induction on the run.
-/
theorem Pool.run_thread {pool : Pool F ε α κ ω} {index : Nat} {call : κ}
    {history events : List (Event F)} {rest later : Program F ε α} {world : ω}
    (waiting : pool.threads[index]? = some { call, history, rest })
    (run : Run rest events later)
    (answered : Answered answers pool.world events world)
    : Execution (PoolStep program admitted answers drifts) pool
        (events.map (.answer index))
        { threads := pool.threads.set index { call, history := history ++ events, rest := later },
          world } := by
  induction run generalizing pool history with
  | refl rest =>
      cases answered
      obtain ⟨bound, same⟩ := List.getElem?_eq_some_iff.mp waiting
      have unchanged : pool.threads.set index { call, history := history ++ [], rest }
          = pool.threads := by
        rw [List.append_nil, ← same, List.set_getElem_self]
      rw [unchanged]
      exact .start
  | @step op resume events rest reply _ ih =>
      obtain ⟨bound, _⟩ := List.getElem?_eq_some_iff.mp waiting
      cases answered with
      | @cons _ _ between _ _ first answered =>
          have moved
              : (pool.threads.set index
                  { call, history := history ++ [⟨op, reply⟩], rest := resume reply })[index]?
                = some { call, history := history ++ [⟨op, reply⟩], rest := resume reply } := by
            simp [bound]
          have next := @ih { threads := _, world := between } _ moved answered
          simp only [List.set_set, List.append_assoc, List.singleton_append] at next
          exact .cons (.answer reply waiting first) next

/-- A new call runs while all others wait. -/
theorem Pool.run_call {pool : Pool F ε α κ ω} {call : κ} {events : List (Event F)}
    {later : Program F ε α} {world : ω} (admits : admitted call)
    (run : Run (program call) events later)
    (answered : Answered answers pool.world events world)
    : Execution (PoolStep program admitted answers drifts) pool
        (.start call :: events.map (.answer pool.threads.length))
        { threads := pool.threads ++ [{ call, history := events, rest := later }], world } := by
  have waiting
      : (pool.threads ++ [{ call, history := [], rest := program call }])[pool.threads.length]?
        = some { call, history := [], rest := program call } := by
    simp
  have moved := @Pool.run_thread F ε α κ ω program admitted answers drifts
    { pool with threads := pool.threads ++ [{ call, history := [], rest := program call }] }
    pool.threads.length call [] events (program call) later world waiting run answered
  simp only [List.nil_append, List.set_append_right _ _ (Nat.le_refl _), Nat.sub_self,
    List.set_cons_zero] at moved
  exact .cons (.start call admits) moved

/-- Every operation answered so far, to any call, meets the law. -/
def Pool.Heard (law : Event F → Prop) (pool : Pool F ε α κ ω) : Prop :=
  ∀ thread ∈ pool.threads, ∀ event ∈ thread.history, law event

/-- A law of the answered operations carries over a step that keeps it, where it holds of the
operation that the step answers.
-/
theorem Pool.Heard.step {law law' : Event F → Prop} {pool next : Pool F ε α κ ω}
    {label : PoolLabel F κ} (heard : pool.Heard law)
    (taken : PoolStep program admitted answers drifts pool label next)
    (still : ∀ event, law event → law' event)
    (now : ∀ index event, label = .answer index event → law' event)
    : next.Heard law' := by
  intro thread member event happened
  cases taken with
  | start call admits =>
      rcases List.mem_append.mp member with before | fresh
      · exact still event (heard thread before event happened)
      · obtain rfl := List.mem_singleton.mp fresh
        cases happened
  | @answer index call history op resume world reply waiting answered =>
      rcases List.mem_or_eq_of_mem_set member with before | rfl
      · exact still event (heard thread before event happened)
      · rcases List.mem_append.mp happened with earlier | last
        · exact still event (heard _ (List.mem_of_getElem? waiting) event earlier)
        · obtain rfl := List.mem_singleton.mp last
          exact now index _ rfl
  | drift moved => exact still event (heard thread member event happened)

-----------------------------------------------------------------------------------------
-- Counting what the calls do
-----------------------------------------------------------------------------------------

/-- The sum of a list one of whose items is replaced, by induction on the list. -/
theorem sum_set {γ : Type} {size : γ → Nat} {items : List γ} {index : Nat} {old new : γ}
    (found : items[index]? = some old)
    : ((items.set index new).map size).sum + size old = (items.map size).sum + size new := by
  induction items generalizing index with
  | nil => simp at found
  | cons item items ih =>
      cases index with
      | zero =>
          obtain rfl : item = old := by simpa using found
          simp only [List.set_cons_zero, List.map_cons, List.sum_cons]
          omega
      | succ index =>
          have later := @ih index (by simpa using found)
          simp only [List.set_cons_succ, List.map_cons, List.sum_cons]
          omega

end Pool
end Foundation
