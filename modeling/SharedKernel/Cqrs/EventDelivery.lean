import SharedKernel.Cqrs.EventBus

/-! In-process delivery: a published event reaches the handlers registered for its name so far,
each once and in order, as long as the emitter's own two event names stay out of the way.
-/

namespace SharedKernel.Cqrs

open Foundation Js

-----------------------------------------------------------------------------------------
-- What a history shows
-----------------------------------------------------------------------------------------

/-- The handler call that an operation is, if any. -/
def EventBusOp.invoked : EventBusOp → Option (Listener × Argument)
  | .handle listener argument => some (listener, argument)
  | _ => none

/-- The listener that an operation adds for a type, if any. -/
def EventBusOp.added (type : String) : EventBusOp → Option Listener
  | .addListener other listener => if other = type then some listener else none
  | _ => none

/-- The warning that an event found no handler. -/
def EventBusOp.Warns : EventBusOp → Prop
  | .log .warn _ _ _ => True
  | _ => False

/-- The handlers that a history has called, in order. -/
def invocations (history : List EventBusEvent) : List (Listener × Argument) :=
  history.filterMap (fun event => event.op.invoked)

/-- The handlers registered under a name so far, in order. -/
def audience (type : String) (labels : List EventBusLabel) : List Listener :=
  labels.filterMap fun
    | .answer _ event => event.op.added type
    | _ => none

@[simp] theorem invocations_append (head tail : List EventBusEvent)
    : invocations (head ++ tail) = invocations head ++ invocations tail :=
  List.filterMap_append

@[simp] theorem invocations_nil : invocations [] = [] := rfl

@[simp] theorem invocations_log (level : LogLevel) (eventName message : String)
    (err : Option Thrown) (reply : Unit) (rest : List EventBusEvent)
    : invocations (⟨.log level eventName message err, reply⟩ :: rest) = invocations rest :=
  rfl

@[simp] theorem invocations_handle (listener : Listener) (argument : Argument)
    (reply : Except Thrown Unit) (rest : List EventBusEvent)
    : invocations (⟨.handle listener argument, reply⟩ :: rest)
      = (listener, argument) :: invocations rest :=
  rfl

@[simp] theorem audience_append (type : String) (head tail : List EventBusLabel)
    : audience type (head ++ tail) = audience type head ++ audience type tail :=
  List.filterMap_append

-----------------------------------------------------------------------------------------
-- One publish
-----------------------------------------------------------------------------------------

/-- While a publish calls the listeners it found, it has called a prefix of them, and it warns
only when it found none; its history is bounded by the handlers called.
-/
def PublishGuard (event : IEvent) (listeners : List Listener) (history : List EventBusEvent)
    (op : EventBusOp)
    : Prop :=
  invocations history ++ op.invoked.toList <+: listeners.map (·, .event event)
  ∧ history.length ≤ 3 * (invocations history).length + 1
  ∧ (op.Warns → listeners = [])

/-- A publish returns when it has called them all, and has warned if there were none. -/
def Published (event : IEvent) (listeners : List Listener) (history : List EventBusEvent)
    (outcome : Except Thrown Unit)
    : Prop :=
  outcome = .ok ()
  ∧ invocations history = listeners.map (·, .event event)
  ∧ history.length ≤ 3 * (invocations history).length + 1
  ∧ (listeners = [] → ∃ last ∈ history, last.op.Warns)

section Publish

variable {event : IEvent} {listeners : List Listener} {history : List EventBusEvent}

/-- An operation that calls no handler is guarded while the calls so far are a prefix. -/
theorem guard_of_called {op : EventBusOp}
    (called : invocations history <+: listeners.map (·, .event event))
    (short : history.length ≤ 3 * (invocations history).length + 1)
    (quiet : op.invoked = none) (warns : ¬ op.Warns)
    : PublishGuard event listeners history op := by
  refine ⟨?_, short, fun warned => absurd warned warns⟩
  rw [quiet, Option.toList_none, List.append_nil]
  exact called

/-- A listener calls its handler once, and what the handler does goes no further. -/
theorem safe_listen {listener : Listener}
    (short : history.length ≤ 3 * (invocations history).length)
    (next : invocations history ++ [(listener, .event event)]
      <+: listeners.map (·, .event event))
    : Safe (PublishGuard event listeners)
        (fun later outcome =>
          outcome = .ok ()
          ∧ invocations later = invocations history ++ [(listener, .event event)]
          ∧ later.length ≤ 3 * (invocations later).length)
        history (EventBus.listen (.event event) listener) := by
  have called := (List.prefix_append _ _).trans next
  refine ⟨guard_of_called called (by omega) rfl id, fun _ => ⟨⟨?_, ?_, False.elim⟩, ?_⟩⟩
  · simpa [EventBusOp.invoked] using next
  · simpa using short
  · intro reply
    cases reply with
    | ok _ =>
        refine ⟨rfl, by simp, ?_⟩
        simp
        omega
    | error error =>
        refine ⟨guard_of_called (by simpa using next) ?_ rfl id, fun _ => ⟨rfl, by simp, ?_⟩⟩
        · simp
          omega
        · simp
          omega

/-- The listeners are called in order, by induction on those that are left. -/
theorem safe_listenAll {called left : List Listener} (split : listeners = called ++ left)
    (sofar : invocations history = called.map (·, .event event))
    (short : history.length ≤ 3 * (invocations history).length)
    : Safe (PublishGuard event listeners)
        (fun later outcome =>
          outcome = .ok ()
          ∧ invocations later = listeners.map (·, .event event)
          ∧ later.length ≤ 3 * (invocations later).length)
        history (EventBus.listenAll (.event event) left) := by
  induction left generalizing called history with
  | nil =>
      refine ⟨rfl, ?_, short⟩
      rw [sofar, split, List.append_nil]
  | cons listener rest ih =>
      have next : invocations history ++ [(listener, .event event)]
          <+: listeners.map (·, .event event) := by
        rw [sofar, split]
        exact ⟨rest.map (·, .event event), by simp⟩
      apply (safe_listen short next).andThen
      rintro later ⟨invoked, few⟩
      apply ih (show listeners = (called ++ [listener]) ++ rest by simp [split]) _ few
      rw [invoked, sofar]
      simp

/-- A publish calls the listeners it found and returns, unless it is an 'error' event that
found none.
-/
theorem safe_emitTo (self : EventBus) (found : event.name = "error" → listeners ≠ [])
    : Safe (PublishGuard event listeners) (Published event listeners) []
        ((self.emitTo event.name (.event event) listeners).bind
          (EventBus.warnUnheard event)) := by
  unfold EventBus.emitTo
  cases listeners with
  | nil =>
      have ordinary : event.name ≠ "error" := fun same => found same rfl
      simp only [List.isEmpty_nil, if_true, if_neg ordinary]
      refine ⟨⟨by simp [EventBusOp.invoked], by simp, fun _ => rfl⟩, fun _ => ?_⟩
      exact ⟨rfl, rfl, by simp, fun _ => ⟨_, List.mem_singleton_self _, trivial⟩⟩
  | cons listener rest =>
      have all := @safe_listenAll event (listener :: rest) [] [] (listener :: rest) rfl rfl
        (by simp)
      rw [safe_bind]
      apply all.andThen
      rintro later ⟨invoked, few⟩
      exact ⟨rfl, invoked, Nat.le_succ_of_le few, nofun⟩

/-- A publish neither waits for a promise nor adds a listener. -/
def Prompt : EventBusOp → Prop
  | .settled | .addListener _ _ => False
  | _ => True

theorem uses_listenAll (argument : Argument) (listeners : List Listener)
    : Uses Prompt (EventBus.listenAll argument listeners) := by
  induction listeners with
  | nil => trivial
  | cons listener rest ih =>
      have first : Uses Prompt (EventBus.listen argument listener) := by
        refine ⟨trivial, fun _ => ⟨trivial, fun reply => ?_⟩⟩
        cases reply with
        | ok _ => trivial
        | error error => exact ⟨trivial, fun _ => trivial⟩
      exact first.bind (fun _ => ih)

theorem uses_publish (self : EventBus) (event : IEvent) : Uses Prompt (self.publish event) := by
  refine ⟨trivial, fun listeners => ?_⟩
  have emitted : Uses Prompt (self.emitTo event.name (.event event) listeners) := by
    unfold EventBus.emitTo
    split
    · split <;> trivial
    · exact (uses_listenAll _ _).bind (fun _ => trivial)
  apply emitted.bind
  intro hadListeners
  cases hadListeners with
  | true => trivial
  | false => exact ⟨trivial, fun _ => trivial⟩

/-- The world answers whatever a publish awaits. -/
theorem answerable {op : EventBusOp} (prompt : Prompt op) (world : EventBusWorld)
    : ∃ reply next, EventBusAnswers world ⟨op, reply⟩ next := by
  cases op with
  | listeners type => exact ⟨_, _, .listeners world type⟩
  | handle listener argument => exact ⟨_, _, .promised world listener argument⟩
  | settled | addListener => exact prompt.elim
  | log level eventName message err => exact ⟨_, _, .log world level eventName message err⟩

end Publish

-----------------------------------------------------------------------------------------
-- Runs of the bus
-----------------------------------------------------------------------------------------

/-- The emitter's own two names stay out of the way: when a call looks up listeners, there is
one for an 'error' event that is being published, and none of 'newListener' while a handler is
being registered.
-/
def Ordinary (pool : EventBusPool) (label : EventBusLabel) : Prop :=
  ∀ index type listeners thread,
    label = .answer index ⟨.listeners type, listeners⟩
    → pool.threads[index]? = some thread
    → (∀ event,
          thread.call = .publish event
          → event.name = "error"
          → pool.world.listeners "error" ≠ [])
      ∧ (∀ eventName handler,
            thread.call = .register eventName handler
            → pool.world.listeners "newListener" = [])

/-- A step of the bus that meets the condition. -/
def EventBus.OrdinaryStep (self : EventBus) (pool : EventBusPool) (label : EventBusLabel)
    (next : EventBusPool)
    : Prop :=
  self.Step pool label next ∧ Ordinary pool label

/-- What a call looked up are the handlers registered before; an 'error' event found one, and
a registration no listener of 'newListener'.
-/
def LookedUp (before : List EventBusLabel) (label : EventBusLabel) : Prop :=
  ∀ index type found,
    label = .answer index ⟨.listeners type, found⟩
    → found = audience type before
      ∧ ∃ call,
          (callsStarted before)[index]? = some call
          ∧ (∀ event,
                call = .publish event → event.name = "error" → audience "error" before ≠ [])
          ∧ (∀ eventName handler,
                call = .register eventName handler → audience "newListener" before = [])

section Runs

variable {self : EventBus} {labels : List EventBusLabel} {pool : EventBusPool}

theorem ordinary_sound
    (run : Execution self.OrdinaryStep (.start EventBusWorld.empty) labels pool)
    : pool.Sound self.program (fun _ => True) labels :=
  Pool.sound (run.mono (fun _ _ _ taken => taken.1))

/-- One answer changes the listeners of a type by the listener it adds. -/
theorem listeners_answered {world next : EventBusWorld} {event : EventBusEvent}
    (answered : EventBusAnswers world event next) (type : String)
    : next.listeners type = world.listeners type ++ (event.op.added type).toList := by
  cases answered with
  | addListener other listener =>
      simp only [EventBusWorld.add, EventBusOp.added]
      by_cases same : type = other
      · simp [same]
      · simp [same, Ne.symm same]
  | listeners | promised | threw | settled | log => simp [EventBusOp.added]

/-- The listeners of a type are those registered, and every lookup found them, by induction on
the run.
-/
theorem listeners_registered
    (run : Execution self.OrdinaryStep (.start EventBusWorld.empty) labels pool)
    : (∀ type, pool.world.listeners type = audience type labels)
      ∧ Throughout LookedUp labels := by
  induction run with
  | start => exact ⟨fun _ => rfl, throughout_nil _⟩
  | @snoc labels pool label next earlier taken ih =>
      obtain ⟨same, lookups⟩ := ih
      obtain ⟨step, ordinary⟩ := taken
      have sound := ordinary_sound earlier
      rw [throughout_snoc]
      cases step with
      | start call _ =>
          refine ⟨fun type => ?_, lookups, fun _ _ _ absurd => by cases absurd⟩
          simpa [audience] using same type
      | @answer index call history op resume world reply waiting answered =>
          refine ⟨fun type => ?_, lookups, ?_⟩
          · rw [listeners_answered answered type, same type, audience_append]
            simp only [audience, List.filterMap_cons, List.filterMap_nil]
            cases op.added type <;> rfl
          · intro _ type found equal
            cases equal
            have conditions := ordinary index type _ _ rfl waiting
            rw [same, same] at conditions
            refine ⟨?_, call, (sound.threads index _ waiting).started, conditions⟩
            cases answered
            exact same type
      | drift moved =>
          subst moved
          refine ⟨fun type => ?_, lookups, fun _ _ _ absurd => by cases absurd⟩
          simpa [audience] using same type

end Runs

-----------------------------------------------------------------------------------------
-- What every call has done
-----------------------------------------------------------------------------------------

/-- A publish that found these listeners has called a prefix of them in order, each with its
event, and all of them once it has returned; it warns if and only if there were none.
-/
structure Delivered (event : IEvent) (listeners : List Listener) (history : List EventBusEvent)
    (rest : EventBusProgram Unit)
    : Prop where
  some : invocations history <+: listeners.map (·, .event event)
  all : rest = .done () → invocations history = listeners.map (·, .event event)
  warned : (∃ last ∈ history, last.op.Warns) → listeners = []
  unheard : rest = .done () → listeners = [] → ∃ last ∈ history, last.op.Warns
  short : history.length ≤ 3 * listeners.length + 2

/-- A publish never throws nor gets stuck, and delivers to the handlers that were registered
under its event's name when it looked them up.
-/
structure PublishDelivers (labels : List EventBusLabel) (world : EventBusWorld) (index : Nat)
    (event : IEvent) (history : List EventBusEvent) (rest : EventBusProgram Unit)
    : Prop where
  returns : ∀ error, rest ≠ .fail error
  answered
    : ∀ op resume,
        rest = .await op resume → ∃ reply next, EventBusAnswers world ⟨op, reply⟩ next
  delivers
    : (history = [] ∧ rest ≠ .done ())
      ∨ ∃ before after,
          labels
            = before
              ++ .answer index ⟨.listeners event.name, audience event.name before⟩ :: after
          ∧ Delivered event (audience event.name before) history rest

section Calls

variable {self : EventBus} {event : IEvent} {listeners : List Listener}
  {history : List EventBusEvent} {rest : EventBusProgram Unit}

/-- What a publish has done since it looked up the listeners, by what is left of it. -/
theorem delivered_of_run (found : event.name = "error" → listeners ≠ [])
    (run : Run ((self.emitTo event.name (.event event) listeners).bind
      (EventBus.warnUnheard event)) history rest)
    : (∀ error, rest ≠ .fail error)
      ∧ Delivered event listeners (⟨.listeners event.name, listeners⟩ :: history) rest := by
  have safe := safe_emitTo self found
  have now : Safe (PublishGuard event listeners) (Published event listeners) history rest :=
    safe.run run
  have guards := safe.throughout run
  have warned : ∀ last ∈ history, last.op.Warns → listeners = [] := by
    intro last member warns
    obtain ⟨before, after, split⟩ := List.append_of_mem member
    exact (guards split).2.2 warns
  have warnedAll
      : (∃ last ∈ (⟨.listeners event.name, listeners⟩ :: history : List EventBusEvent),
            last.op.Warns)
        → listeners = [] := by
    rintro ⟨last, member, warns⟩
    rcases List.mem_cons.mp member with rfl | later
    · exact absurd warns id
    · exact warned last later warns
  have length : (listeners.map (·, Argument.event event)).length = listeners.length :=
    List.length_map _
  cases rest with
  | done value =>
      obtain ⟨_, invoked, short, unheard⟩ := now
      refine ⟨nofun, ?_⟩
      exact {
        some := by
          rw [← invoked]
          exact List.prefix_refl _
        all := fun _ => invoked
        warned := warnedAll
        unheard := by
          intro _ none
          obtain ⟨last, member, warns⟩ := unheard none
          exact ⟨last, List.mem_cons_of_mem _ member, warns⟩
        short := by
          rw [invoked, length] at short
          rw [List.length_cons]
          omega
      }
  | fail error => cases now.1
  | await op resume =>
      obtain ⟨⟨called, short, _⟩, _⟩ := now
      have sofar := (List.prefix_append _ _).trans called
      have few := sofar.length_le
      refine ⟨nofun, ?_⟩
      exact {
        some := sofar
        all := nofun
        warned := warnedAll
        unheard := nofun
        short := by
          rw [length] at few
          rw [List.length_cons]
          omega
      }

/-- The first answer to a thread, among the labels. -/
theorem answersOf_eq_cons {labels : List EventBusLabel} {index : Nat} {first : EventBusEvent}
    {later : List EventBusEvent} (answers : answersOf index labels = first :: later)
    : ∃ before after, labels = before ++ .answer index first :: after := by
  obtain ⟨before, label, after, rfl, _, found, _⟩ := List.filterMap_eq_cons_iff.mp answers
  cases label with
  | answer thread event =>
      by_cases own : thread = index
      · obtain rfl : event = first := by simpa [own] using found
        exact ⟨before, after, by rw [own]⟩
      · simp [own] at found
  | start | drift => simp at found

variable {labels : List EventBusLabel} {pool : EventBusPool} {index : Nat}

/-- What the first lookup of a thread found, and what the condition says of it. -/
theorem first_lookup (run : Execution self.OrdinaryStep (.start EventBusWorld.empty) labels pool)
    {call : EventBusCall} {type : String} {later : List EventBusEvent}
    (found
      : pool.threads[index]?
        = some { call, history := ⟨.listeners type, listeners⟩ :: later, rest })
    : ∃ before after,
        labels = before ++ .answer index ⟨.listeners type, audience type before⟩ :: after
        ∧ listeners = audience type before
        ∧ (∀ event,
              call = .publish event → event.name = "error" → audience "error" before ≠ [])
        ∧ (∀ eventName handler,
              call = .register eventName handler → audience "newListener" before = []) := by
  have sound := (ordinary_sound run).threads index _ found
  obtain ⟨before, after, split⟩ := answersOf_eq_cons sound.answered.symm
  obtain ⟨same, looked, started, published, registering⟩ :=
    (listeners_registered run).2 split index type listeners rfl
  have whole : (callsStarted labels)[index]? = some looked := by
    obtain ⟨bound, _⟩ := List.getElem?_eq_some_iff.mp started
    rw [split, callsStarted_append, List.getElem?_append_left bound]
    exact started
  obtain rfl : looked = call := by
    have own := sound.started
    rw [whole] at own
    exact Option.some.inj own
  rw [same] at split
  exact ⟨before, after, split, same, published, registering⟩

/-- What a publish has done by now. -/
theorem publish_delivers
    (run : Execution self.OrdinaryStep (.start EventBusWorld.empty) labels pool)
    (found : pool.threads[index]? = some { call := .publish event, history, rest })
    : PublishDelivers labels pool.world index event history rest := by
  have own : Run (self.publish event) history rest :=
    ((ordinary_sound run).threads index _ found).run
  have prompt : Uses Prompt rest := Uses.rest (uses_publish self event) own
  have answered
      : ∀ op resume,
          rest = .await op resume
          → ∃ reply next, EventBusAnswers pool.world ⟨op, reply⟩ next := by
    rintro op resume rfl
    exact answerable prompt.1 _
  cases own with
  | refl => exact ⟨nofun, answered, Or.inl ⟨rfl, nofun⟩⟩
  | step reply later =>
      obtain ⟨before, after, split, rfl, published, _⟩ := first_lookup run found
      have named : event.name = "error" → audience event.name before ≠ [] := by
        intro same
        rw [same]
        exact published event rfl same
      obtain ⟨returns, delivered⟩ := delivered_of_run named later
      exact ⟨returns, answered, Or.inr ⟨before, after, split, delivered⟩⟩

/-- A registration never throws, calls no handler, and has added its listener to those of the
event's name, once, when it has returned.
-/
structure RegisterAdds (eventName : String) (handler : Nat) (history : List EventBusEvent)
    (rest : EventBusProgram Unit)
    : Prop where
  returns : ∀ error, rest ≠ .fail error
  silent : invocations history = []
  own
    : ∀ event ∈ history,
        ∀ type listener, event.op = .addListener type listener
          → type = eventName ∧ listener = { eventName, handler }
  adds
    : rest = .done ()
      → history
        = [⟨.listeners "newListener", []⟩, ⟨.addListener eventName { eventName, handler }, ()⟩]

/-- What a registration has done by now: without a 'newListener' listener it only adds its own.
-/
theorem register_adds
    (run : Execution self.OrdinaryStep (.start EventBusWorld.empty) labels pool)
    {eventName : String} {handler : Nat}
    (found : pool.threads[index]? = some { call := .register eventName handler, history, rest })
    : RegisterAdds eventName handler history rest := by
  have own : Run (self.register eventName handler) history rest :=
    ((ordinary_sound run).threads index _ found).run
  cases own with
  | refl => exact ⟨nofun, rfl, by simp, nofun⟩
  | step watchers later =>
      obtain ⟨before, _, _, rfl, _, unwatched⟩ := first_lookup run found
      have none : audience "newListener" before = [] := unwatched eventName handler rfl
      simp only [none] at later ⊢
      cases later with
      | refl => exact ⟨nofun, rfl, by simp, nofun⟩
      | step reply last =>
          cases last with
          | refl =>
              refine ⟨nofun, rfl, ?_, fun _ => rfl⟩
              intro event member type listener same
              simp only [List.mem_cons, List.not_mem_nil, or_false] at member
              rcases member with rfl | rfl
              · cases same
              · cases same
                exact ⟨rfl, rfl⟩

/-- An operation that calls no handler and adds no listener. -/
def Aside (op : EventBusOp) : Prop :=
  op.invoked = none ∧ ∀ type, op.added type = none

/-- A settlement waits and logs. -/
theorem uses_settlement : Uses Aside EventBus.settlement := by
  refine ⟨⟨rfl, fun _ => rfl⟩, fun reply => ?_⟩
  obtain ⟨listener, outcome⟩ := reply
  cases outcome with
  | ok _ => exact ⟨⟨rfl, fun _ => rfl⟩, fun _ => trivial⟩
  | error error => exact ⟨⟨rfl, fun _ => rfl⟩, fun _ => trivial⟩

/-- An answered operation is in the history of its thread. -/
theorem mem_history (run : Execution self.OrdinaryStep (.start EventBusWorld.empty) labels pool)
    {event : EventBusEvent} (member : .answer index event ∈ labels)
    : ∃ thread,
        pool.threads[index]? = some thread
        ∧ event ∈ thread.history
        ∧ (callsStarted labels)[index]? = some thread.call := by
  have sound := ordinary_sound run
  have answered := mem_answersOf.mpr member
  rcases Nat.lt_or_ge index pool.threads.length with among | beyond
  · have thread := sound.threads index _ (List.getElem?_eq_getElem among)
    refine ⟨_, List.getElem?_eq_getElem among, ?_, thread.started⟩
    rw [thread.answered]
    exact answered
  · rw [sound.silent index beyond] at answered
    cases answered

/-- Only a registration adds a listener, and it adds its own. -/
theorem added_by_register
    (run : Execution self.OrdinaryStep (.start EventBusWorld.empty) labels pool) {type : String}
    {listener : Listener} {reply : Unit}
    (member : .answer index ⟨.addListener type listener, reply⟩ ∈ labels)
    : (callsStarted labels)[index]? = some (.register type listener.handler)
      ∧ listener.eventName = type := by
  obtain ⟨⟨call, history, rest⟩, found, past, started⟩ := mem_history run member
  have own := ((ordinary_sound run).threads index _ found).run
  cases call with
  | register eventName handler =>
      obtain ⟨rfl, rfl⟩ := (register_adds run found).own _ past type listener rfl
      exact ⟨started, rfl⟩
  | publish event => exact (Uses.of_run (uses_publish self event) own _ past).elim
  | settlement =>
      have none := (uses_settlement.of_run own _ past).2 type
      simp [EventBusOp.added] at none

/-- A registered listener was added under its own event name. -/
theorem eventName_of_registered
    (run : Execution self.OrdinaryStep (.start EventBusWorld.empty) labels pool) {type : String}
    {before after : List EventBusLabel} (split : labels = before ++ after) {listener : Listener}
    (member : listener ∈ audience type before)
    : listener.eventName = type := by
  obtain ⟨label, among, same⟩ := List.mem_filterMap.mp member
  cases label with
  | answer index event =>
      obtain ⟨op, reply⟩ := event
      cases op with
      | addListener other added =>
          simp only [EventBusOp.added] at same
          split at same
          · rename_i equal
            obtain rfl := Option.some.inj same
            rw [← equal]
            have here : .answer index ⟨.addListener other added, reply⟩ ∈ labels := by
              rw [split]
              exact List.mem_append_left _ among
            exact (added_by_register run here).2
          · cases same
      | listeners | handle | settled | log => simp [EventBusOp.added] at same
  | start | drift => simp at same

/-- A handler is called only by a publish of its own name, with the event published. -/
theorem invoked_by_publish
    (run : Execution self.OrdinaryStep (.start EventBusWorld.empty) labels pool)
    {listener : Listener} {argument : Argument} {reply : Except Thrown Unit}
    (member : .answer index ⟨.handle listener argument, reply⟩ ∈ labels)
    : ∃ event,
        (callsStarted labels)[index]? = some (.publish event)
        ∧ event.name = listener.eventName
        ∧ argument = .event event := by
  obtain ⟨⟨call, history, rest⟩, found, past, started⟩ := mem_history run member
  have invoked : (listener, argument) ∈ invocations history :=
    List.mem_filterMap.mpr ⟨_, past, rfl⟩
  cases call with
  | register eventName handler =>
      rw [(register_adds run found).silent] at invoked
      cases invoked
  | publish event =>
      rcases (publish_delivers run found).delivers with ⟨rfl, _⟩ | ⟨before, after, split, delivered⟩
      · cases past
      · have target := delivered.some.subset invoked
        obtain ⟨_, among, same⟩ := List.mem_map.mp target
        obtain ⟨rfl, rfl⟩ := Prod.mk.inj same
        exact ⟨event, started, (eventName_of_registered run split among).symm, rfl⟩
  | settlement =>
      have own := ((ordinary_sound run).threads index _ found).run
      have none := (uses_settlement.of_run own _ past).1
      simp [EventBusOp.invoked] at none

end Calls

-----------------------------------------------------------------------------------------
-- The bus
-----------------------------------------------------------------------------------------

/-- In every state reached each publish delivers to the handlers registered so far and returns,
each registration adds its handler, and nothing else calls a handler or registers one.
-/
structure EventBusDelivers (labels : List EventBusLabel) (pool : EventBusPool) : Prop where
  publishes
    : ∀ (index : Nat) (event : IEvent) (history : List EventBusEvent)
          (rest : EventBusProgram Unit),
        pool.threads[index]? = some { call := .publish event, history, rest }
        → PublishDelivers labels pool.world index event history rest
  registers
    : ∀ (index : Nat) (eventName : String) (handler : Nat) (history : List EventBusEvent)
          (rest : EventBusProgram Unit),
        pool.threads[index]? = some { call := .register eventName handler, history, rest }
        → RegisterAdds eventName handler history rest
  added
    : ∀ (index : Nat) (type : String) (listener : Listener) (reply : Unit),
        .answer index ⟨.addListener type listener, reply⟩ ∈ labels
        → (callsStarted labels)[index]? = some (.register type listener.handler)
          ∧ listener.eventName = type
  invoked
    : ∀ (index : Nat) (listener : Listener) (argument : Argument)
          (reply : Except Thrown Unit),
        .answer index ⟨.handle listener argument, reply⟩ ∈ labels
        → ∃ event,
            (callsStarted labels)[index]? = some (.publish event)
            ∧ event.name = listener.eventName
            ∧ argument = .event event

/-- As long as no 'error' event is published without a handler and nothing is registered while
'newListener' has a handler, the bus delivers, in every run.
-/
theorem bus_delivers {self : EventBus} {labels : List EventBusLabel} {pool : EventBusPool}
    (run : Execution self.OrdinaryStep (.start EventBusWorld.empty) labels pool)
    : EventBusDelivers labels pool where
  publishes _ _ _ _ found := publish_delivers run found
  registers _ _ _ _ _ found := register_adds run found
  added _ _ _ _ member := added_by_register run member
  invoked _ _ _ _ member := invoked_by_publish run member

-----------------------------------------------------------------------------------------
-- Single runs
-----------------------------------------------------------------------------------------

/-- A bus whose runtime shows every value alike. -/
def plainBus : EventBus where
  inspect _ := "\x7b name: 'error' \x7d"

/-- An event that is no `Error`. -/
def plainEvent (name : String) : IEvent where
  name
  error? := none

section Single

variable {self : EventBus} {labels : List EventBusLabel} {pool : EventBusPool}

/-- A run goes on with a new call. -/
theorem run_start (run : Execution self.OrdinaryStep (.start EventBusWorld.empty) labels pool)
    (call : EventBusCall)
    : Execution self.OrdinaryStep (.start EventBusWorld.empty) (labels ++ [.start call])
        {
          pool with
          threads := pool.threads ++ [{ call, history := [], rest := self.program call }]
        } := by
  refine run.snoc ⟨.start call trivial, ?_⟩
  intro _ _ _ _ absurd
  cases absurd

/-- A run goes on with an answer to a thread. -/
theorem run_answer (run : Execution self.OrdinaryStep (.start EventBusWorld.empty) labels pool)
    (index : Nat) {call : EventBusCall} {history : List EventBusEvent} {op : EventBusOp}
    {resume : op.Reply → EventBusProgram Unit} {next : EventBusWorld} (reply : op.Reply)
    (waiting : pool.threads[index]? = some { call, history, rest := .await op resume })
    (answered : EventBusAnswers pool.world ⟨op, reply⟩ next)
    (ordinary
      : (∀ event,
            call = .publish event → event.name = "error" → pool.world.listeners "error" ≠ [])
        ∧ (∀ eventName handler,
              call = .register eventName handler → pool.world.listeners "newListener" = []))
    : Execution self.OrdinaryStep (.start EventBusWorld.empty)
        (labels ++ [.answer index ⟨op, reply⟩])
        {
          threads :=
            pool.threads.set index
              { call, history := history ++ [⟨op, reply⟩], rest := resume reply }
          world := next
        } := by
  refine run.snoc ⟨.answer reply waiting answered, ?_⟩
  intro other type found thread same here
  cases same
  rw [waiting] at here
  obtain rfl := Option.some.inj here
  exact ordinary

end Single

/-- A registration, and a publish that calls its handler. -/
theorem bus_delivers_testEvent
    : ∃ (labels : List EventBusLabel) (pool : EventBusPool),
        PublishDelivers labels pool.world 1 (plainEvent "TestEvent")
          [
            ⟨.listeners "TestEvent", [⟨"TestEvent", 0⟩]⟩,
            ⟨.log .debug "TestEvent" "Handling TestEvent" none, ()⟩,
            ⟨.handle ⟨"TestEvent", 0⟩ (.event (plainEvent "TestEvent")), .ok ()⟩
          ]
          (.done ()) := by
  have registering : ∀ {unheard : Prop} (event : IEvent),
      EventBusCall.register "TestEvent" 0 = .publish event → event.name = "error" → unheard := by
    intro unheard event absurd
    cases absurd
  have publishing : ∀ {unheard : Prop} (event : IEvent),
      EventBusCall.publish (plainEvent "TestEvent") = .publish event
      → event.name = "error"
      → unheard := by
    rintro unheard event same error
    cases same
    exact absurd error (by decide)
  have run : Execution plainBus.OrdinaryStep (.start EventBusWorld.empty) [] _ := .start
  have run := run_start run (.register "TestEvent" 0)
  have run := run_answer run 0 [] rfl (.listeners _ _) ⟨registering, fun _ _ _ => rfl⟩
  have run := run_answer run 0 () rfl (.addListener _ _ _) ⟨registering, fun _ _ _ => rfl⟩
  have run := run_start run (.publish (plainEvent "TestEvent"))
  have run := run_answer run 1 [⟨"TestEvent", 0⟩] rfl (.listeners _ _)
    ⟨publishing, fun _ _ absurd => (by cases absurd)⟩
  have run := run_answer run 1 () rfl (.log _ _ _ _ _)
    ⟨publishing, fun _ _ absurd => (by cases absurd)⟩
  have run := run_answer run 1 (Except.ok ()) rfl (.promised _ _ _)
    ⟨publishing, fun _ _ absurd => (by cases absurd)⟩
  exact ⟨_, _, (bus_delivers run).publishes 1 _ _ _ rfl⟩

/-- An 'error' event without a handler is thrown at its publisher, and a handler of 'newListener'
is called by the next registration.
-/
theorem reserved_names_break
    : (∃ (labels : List EventBusLabel) (pool : EventBusPool),
          Execution plainBus.Step (.start EventBusWorld.empty) labels pool
          ∧ callsStarted labels = [.publish (plainEvent "error")]
          ∧ pool.threads[0]?
            = some
              {
                call := .publish (plainEvent "error")
                history := [⟨.listeners "error", []⟩]
                rest :=
                  .fail
                    (.value 0
                      (some
                        "Error [ERR_UNHANDLED_ERROR]: Unhandled error. (\x7b name: 'error' \x7d)"))
              }
          ∧ ¬ EventBusDelivers labels pool)
      ∧ ∃ (labels : List EventBusLabel) (pool : EventBusPool),
          Execution plainBus.Step (.start EventBusWorld.empty) labels pool
          ∧ callsStarted labels = [.register "newListener" 0, .register "TestEvent" 1]
          ∧ .answer 1 ⟨.handle ⟨"newListener", 0⟩ (.type "TestEvent"), .ok ()⟩ ∈ labels
          ∧ ¬ EventBusDelivers labels pool := by
  constructor
  · have run := @Pool.run_call _ _ _ _ _ plainBus.program (fun _ => True) EventBusAnswers Eq
      (.start EventBusWorld.empty) (.publish (plainEvent "error"))
      [⟨.listeners "error", []⟩] _ _ trivial (.step _ (.refl _)) (.cons (.listeners _ _) (.nil _))
    refine ⟨_, _, run, rfl, rfl, ?_⟩
    intro delivers
    exact (delivers.publishes 0 _ _ _ rfl).returns _ rfl
  · have first := @Pool.run_call _ _ _ _ _ plainBus.program (fun _ => True) EventBusAnswers Eq
      (.start EventBusWorld.empty) (.register "newListener" 0)
      [⟨.listeners "newListener", []⟩, ⟨.addListener "newListener" ⟨"newListener", 0⟩, ()⟩] _ _
      trivial (.step _ (.step _ (.refl _)))
      (.cons (.listeners _ _) (.cons (.addListener _ _ _) (.nil _)))
    have watched
        : EventBusAnswers (EventBusWorld.empty.add "newListener" ⟨"newListener", 0⟩)
            ⟨.listeners "newListener", [⟨"newListener", 0⟩]⟩
            (EventBusWorld.empty.add "newListener" ⟨"newListener", 0⟩) :=
      .listeners _ _
    have run := first.trans <| @Pool.run_call _ _ _ _ _ plainBus.program (fun _ => True)
      EventBusAnswers Eq
      { threads := _, world := EventBusWorld.empty.add "newListener" ⟨"newListener", 0⟩ }
      (.register "TestEvent" 1)
      [
        ⟨.listeners "newListener", [⟨"newListener", 0⟩]⟩,
        ⟨.listeners "newListener", [⟨"newListener", 0⟩]⟩,
        ⟨.log .debug "newListener" "Handling newListener" none, ()⟩,
        ⟨.handle ⟨"newListener", 0⟩ (.type "TestEvent"), .ok ()⟩
      ]
      _ _ trivial (.step _ (.step _ (.step _ (.step _ (.refl _)))))
      (.cons watched (.cons watched (.cons (.log _ _ _ _ _) (.cons (.promised _ _ _) (.nil _)))))
    refine ⟨_, _, run, rfl, ?_⟩
    refine (and_iff_left_of_imp ?_).mpr ?_
    · intro invoked delivers
      obtain ⟨event, absurd, _⟩ := delivers.invoked 1 _ _ _ invoked
      cases absurd
    · exact List.mem_append_right _ (.tail _ (.tail _ (.tail _ (.tail _ (.head _)))))

end SharedKernel.Cqrs
