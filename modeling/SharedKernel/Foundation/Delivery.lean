import Mathlib.Data.List.Nodup
import Mathlib.Logic.Function.Basic
import SharedKernel.Foundation.Run
import SharedKernel.Foundation.Transition

/-! At-least-once delivery of append-only logs to a consumer group: each partition is read in
order from the committed offset, one record at a time by a program that commits, and read
again from there after a failure.
-/

namespace Foundation

/-- The log of every partition. -/
abbrev Logs (π ρ : Type) := π → List ρ

/-- No log loses or changes a record. -/
def Logs.Grow {π ρ : Type} (logs later : Logs π ρ) : Prop :=
  ∀ partition, logs partition <+: later partition

theorem Logs.Grow.refl {π ρ : Type} (logs : Logs π ρ) : logs.Grow logs :=
  fun _ => List.prefix_refl _

/-- A record keeps its place in a growing log. -/
theorem Logs.Grow.getElem? {π ρ : Type} {logs later : Logs π ρ} (grow : logs.Grow later)
    {partition : π} {offset : Nat} {record : ρ}
    (found : (logs partition)[offset]? = some record)
    : (later partition)[offset]? = some record := by
  obtain ⟨more, same⟩ := grow partition
  obtain ⟨bound, _⟩ := List.getElem?_eq_some_iff.mp found
  rw [← same, List.getElem?_append_left bound]
  exact found

/-- One delivery of a record: the operations answered so far, and the rest of its program. -/
structure Delivery (F : Signature) (ε π ρ : Type) where
  partition : π
  offset : Nat
  record : ρ
  history : List (Event F)
  rest : Program F ε Unit

/-- A consumer group: what it has committed, where it reads, what it is working on, and the
deliveries that have ended.
-/
structure Group (F : Signature) (ε π ρ : Type) where
  committed : π → Nat
  position : π → Nat
  running : π → Option (Delivery F ε π ρ)
  ended : List (Delivery F ε π ρ)

/-- What a group subscribes to, the program it runs on a record, the commit an operation asks
for, whether an event confirms its operation, and what an event does to the logs.
-/
structure GroupSpec (F : Signature) (ε π ρ : Type) where
  subscribed : π → Prop
  program : π → Nat → ρ → Program F ε Unit
  commits : F.Op → Option (π × Nat)
  confirmed : Event F → Prop
  appends : Delivery F ε π ρ → Event F → Logs π ρ → Logs π ρ → Prop

/-- The steps of a group, each in one partition. -/
inductive GroupLabel (F : Signature) (π : Type) where
  | deliver (partition : π)
  | answer (partition : π) (event : Event F)
  | resolve (partition : π)
  | restart (partition : π)

section Group

variable {F : Signature} {ε π ρ : Type}

/-- A group that has read nothing. -/
def Group.start : Group F ε π ρ where
  committed := fun _ => 0
  position := fun _ => 0
  running := fun _ => none
  ended := []

/-- The delivery has ended or is under way. -/
def Group.Delivered (group : Group F ε π ρ) (delivery : Delivery F ε π ρ) : Prop :=
  delivery ∈ group.ended ∨ group.running delivery.partition = some delivery

/-- Every delivery of the first group is one of the second, perhaps with more answers. -/
def Group.Follows (group next : Group F ε π ρ) : Prop :=
  ∀ delivery,
    group.Delivered delivery
    → ∃ later more,
        next.Delivered later
        ∧ later.partition = delivery.partition
        ∧ later.offset = delivery.offset
        ∧ later.record = delivery.record
        ∧ later.history = delivery.history ++ more

/-- A delivery stays as it is, where the group keeps or ends it. -/
theorem Group.follows_of_delivered {group next : Group F ε π ρ}
    (kept : ∀ delivery, group.Delivered delivery → next.Delivered delivery)
    : group.Follows next :=
  fun delivery delivered =>
    ⟨delivery, [], kept delivery delivered, rfl, rfl, rfl, (List.append_nil _).symm⟩

/-- The duty of a program on a record: it commits only the successor of the record's offset,
and only once its history is `terminal`, and it finishes only then.
-/
def GroupSpec.Dutiful (spec : GroupSpec F ε π ρ)
    (terminal : π → Nat → ρ → List (Event F) → Prop) (partition : π) (offset : Nat)
    (record : ρ)
    : Prop :=
  Safe
    (fun history op =>
      ∀ target next,
        spec.commits op = some (target, next)
        → target = partition ∧ next = offset + 1 ∧ terminal partition offset record history)
    (fun history outcome => outcome = .ok () → terminal partition offset record history)
    [] (spec.program partition offset record)

/-- Some delivery of the record has reached its end. -/
def Group.Handled (terminal : π → Nat → ρ → List (Event F) → Prop)
    (group : Group F ε π ρ) (partition : π) (offset : Nat) (record : ρ)
    : Prop :=
  ∃ delivery,
    group.Delivered delivery
    ∧ delivery.partition = partition
    ∧ delivery.offset = offset
    ∧ delivery.record = record
    ∧ terminal partition offset record delivery.history

/-- A handled record stays handled. -/
theorem Group.Handled.follow {terminal : π → Nat → ρ → List (Event F) → Prop}
    {group next : Group F ε π ρ} {partition : π} {offset : Nat} {record : ρ}
    (handled : group.Handled terminal partition offset record) (follows : group.Follows next)
    (lasting
      : ∀ history more,
          terminal partition offset record history
          → terminal partition offset record (history ++ more))
    : next.Handled terminal partition offset record := by
  obtain ⟨delivery, delivered, rfl, rfl, rfl, ends⟩ := handled
  obtain ⟨kept, more, still, samePartition, sameOffset, sameRecord, longer⟩ :=
    follows delivery delivered
  refine ⟨kept, still, samePartition, sameOffset, sameRecord, ?_⟩
  rw [longer]
  exact lasting _ _ ends

/-- A running delivery is a run on the record at the group's position. -/
structure GroupSpec.Working (spec : GroupSpec F ε π ρ) (logs : Logs π ρ)
    (group : Group F ε π ρ) (partition : π) (delivery : Delivery F ε π ρ)
    : Prop where
  subscribed : spec.subscribed partition
  own : delivery.partition = partition
  place : delivery.offset = group.position partition
  found : (logs partition)[delivery.offset]? = some delivery.record
  run : Run (spec.program partition delivery.offset delivery.record) delivery.history delivery.rest

/-- Every running delivery of the group is such a run. -/
def Group.Busy (spec : GroupSpec F ε π ρ) (logs : Logs π ρ) (group : Group F ε π ρ) : Prop :=
  ∀ partition delivery,
    group.running partition = some delivery → spec.Working logs group partition delivery

/-- Moreover every record below the position or the committed offset of its partition has
been handled.
-/
structure Group.Sound (spec : GroupSpec F ε π ρ)
    (terminal : π → Nat → ρ → List (Event F) → Prop) (logs : Logs π ρ)
    (group : Group F ε π ρ)
    : Prop where
  busy : group.Busy spec logs
  handled
    : ∀ partition offset,
        offset < group.position partition ∨ offset < group.committed partition
        → ∃ record,
            (logs partition)[offset]? = some record
            ∧ group.Handled terminal partition offset record

/-- Running deliveries do not notice that the logs grow. -/
theorem Group.Busy.grow {spec : GroupSpec F ε π ρ} {logs later : Logs π ρ}
    {group : Group F ε π ρ} (busy : group.Busy spec logs) (grow : logs.Grow later)
    : group.Busy spec later := by
  intro partition delivery running
  have working := busy partition delivery running
  exact { working with found := grow.getElem? working.found }

/-- A sound group stays sound while the logs grow. -/
theorem Group.Sound.grow {spec : GroupSpec F ε π ρ}
    {terminal : π → Nat → ρ → List (Event F) → Prop} {logs later : Logs π ρ}
    {group : Group F ε π ρ} (sound : group.Sound spec terminal logs) (grow : logs.Grow later)
    : group.Sound spec terminal later := by
  refine ⟨sound.busy.grow grow, ?_⟩
  intro partition offset below
  obtain ⟨record, found, handled⟩ := sound.handled partition offset below
  exact ⟨record, grow.getElem? found, handled⟩

/-- The record of a running delivery has been handled, together with all before it, where the
delivery is at its end.
-/
theorem Group.Sound.handled_running {spec : GroupSpec F ε π ρ}
    {terminal : π → Nat → ρ → List (Event F) → Prop} {logs : Logs π ρ} {group : Group F ε π ρ}
    (sound : group.Sound spec terminal logs) {partition : π}
    {delivery : Delivery F ε π ρ} (running : group.running partition = some delivery)
    (ends : terminal partition delivery.offset delivery.record delivery.history)
    {offset : Nat} (below : offset < delivery.offset + 1)
    : ∃ record,
        (logs partition)[offset]? = some record
        ∧ group.Handled terminal partition offset record := by
  have working := sound.busy partition delivery running
  rcases Nat.lt_or_eq_of_le (Nat.le_of_lt_succ below) with earlier | rfl
  · exact sound.handled partition offset (Or.inl (working.place ▸ earlier))
  · refine ⟨delivery.record, working.found, delivery, Or.inr ?_, working.own, rfl, rfl, ends⟩
    rw [working.own]
    exact running

theorem Group.busy_start (spec : GroupSpec F ε π ρ) (logs : Logs π ρ)
    : Group.start.Busy spec logs := by
  intro partition delivery running
  cases running

theorem Group.sound_start (spec : GroupSpec F ε π ρ)
    (terminal : π → Nat → ρ → List (Event F) → Prop) (logs : Logs π ρ)
    : Group.start.Sound spec terminal logs := by
  refine ⟨busy_start spec logs, ?_⟩
  intro partition offset below
  simp [Group.start] at below

/-- Whatever the operations of a group do to the logs, they only append. -/
def GroupSpec.Growing (spec : GroupSpec F ε π ρ) : Prop :=
  ∀ delivery event logs later, spec.appends delivery event logs later → logs.Grow later

/-- The operations only append, what ends a delivery lasts, and the programs are dutiful on
records below the limit.
-/
structure GroupSpec.Lawful (spec : GroupSpec F ε π ρ)
    (terminal : π → Nat → ρ → List (Event F) → Prop) (limit : Nat)
    : Prop where
  growing : spec.Growing
  lasting
    : ∀ partition offset record history more,
        terminal partition offset record history
        → terminal partition offset record (history ++ more)
  dutiful
    : ∀ partition offset record, offset < limit → spec.Dutiful terminal partition offset record

/-- What every answer leaves behind in the logs for the record it is about, and growing logs
keep.
-/
structure GroupSpec.Leaves (spec : GroupSpec F ε π ρ) (kept : ρ → Event F → Logs π ρ → Prop)
    : Prop where
  left
    : ∀ delivery event logs later,
        spec.appends delivery event logs later → kept delivery.record event later
  stays
    : ∀ record event logs later,
        logs.Grow later → kept record event logs → kept record event later

/-- Every answered operation has left what it had to. -/
def Group.Kept (kept : ρ → Event F → Logs π ρ → Prop) (logs : Logs π ρ) (group : Group F ε π ρ)
    : Prop :=
  ∀ delivery,
    group.Delivered delivery → ∀ event ∈ delivery.history, kept delivery.record event logs

theorem Group.kept_start (kept : ρ → Event F → Logs π ρ → Prop) (logs : Logs π ρ)
    : (Group.start : Group F ε π ρ).Kept kept logs := by
  intro delivery delivered
  rcases delivered with ended | running
  · cases ended
  · cases running

/-- Growing logs keep what the answers have left. -/
theorem Group.Kept.grow {spec : GroupSpec F ε π ρ} {logs later : Logs π ρ}
    {group : Group F ε π ρ} {kept : ρ → Event F → Logs π ρ → Prop} (holds : group.Kept kept logs)
    (leaves : spec.Leaves kept) (grow : logs.Grow later)
    : group.Kept kept later :=
  fun delivery delivered event member =>
    leaves.stays _ _ _ _ grow (holds delivery delivered event member)

/-- Every delivery, under way or ended, is a run on the record at its place in the logs. -/
def Group.Genuine (spec : GroupSpec F ε π ρ) (logs : Logs π ρ) (group : Group F ε π ρ)
    : Prop :=
  ∀ delivery,
    group.Delivered delivery
    → spec.subscribed delivery.partition
      ∧ (logs delivery.partition)[delivery.offset]? = some delivery.record
      ∧ Run (spec.program delivery.partition delivery.offset delivery.record)
          delivery.history delivery.rest

theorem Group.genuine_start (spec : GroupSpec F ε π ρ) (logs : Logs π ρ)
    : Group.start.Genuine spec logs := by
  intro delivery delivered
  rcases delivered with ended | running
  · cases ended
  · cases running

theorem Group.Genuine.grow {spec : GroupSpec F ε π ρ} {logs later : Logs π ρ}
    {group : Group F ε π ρ} (genuine : group.Genuine spec logs) (grow : logs.Grow later)
    : group.Genuine spec later := by
  intro delivery delivered
  obtain ⟨subscribed, found, run⟩ := genuine delivery delivered
  exact ⟨subscribed, grow.getElem? found, run⟩

/-- The step does not start a partition over. -/
def GroupLabel.Steady : GroupLabel F π → Prop
  | .restart _ => False
  | _ => True

/-- Every delivery that has ended lies below the position of its partition. -/
def Group.Once (group : Group F ε π ρ) : Prop :=
  ∀ delivery ∈ group.ended, delivery.offset < group.position delivery.partition

/-- The place of the delivered record. -/
def Delivery.place (delivery : Delivery F ε π ρ) : π × Nat :=
  (delivery.partition, delivery.offset)

/-- The deliveries that have ended, and those under way in the given partitions. -/
def Group.deliveries (group : Group F ε π ρ) (partitions : List π)
    : List (Delivery F ε π ρ) :=
  group.ended ++ partitions.filterMap group.running

/-- The running deliveries of different partitions are at different places, by induction on
the partitions.
-/
theorem Group.Busy.nodup_running {spec : GroupSpec F ε π ρ} {logs : Logs π ρ}
    {group : Group F ε π ρ} (busy : group.Busy spec logs) {partitions : List π}
    (distinct : partitions.Nodup)
    : ((partitions.filterMap group.running).map Delivery.place).Nodup := by
  induction partitions with
  | nil => exact List.nodup_nil
  | cons partition rest ih =>
      obtain ⟨fresh, distinct⟩ := List.nodup_cons.mp distinct
      cases running : group.running partition with
      | none => simpa [List.filterMap_cons, running] using ih distinct
      | some delivery =>
          rw [List.filterMap_cons, running, List.map_cons, List.nodup_cons]
          refine ⟨?_, ih distinct⟩
          intro again
          obtain ⟨other, member, same⟩ := List.mem_map.mp again
          obtain ⟨elsewhere, among, running'⟩ := List.mem_filterMap.mp member
          have here := (busy partition delivery running).own
          have there := (busy elsewhere other running').own
          have equal : other.partition = delivery.partition := congrArg Prod.fst same
          rw [here, there] at equal
          exact fresh (equal ▸ among)

/-- No record is delivered twice: the deliveries that have ended are at different places, all
below the position of their partition.
-/
structure Group.InOrder (group : Group F ε π ρ) : Prop where
  once : group.Once
  distinct : (group.ended.map Delivery.place).Nodup

theorem Group.inOrder_start : (Group.start : Group F ε π ρ).InOrder := by
  refine ⟨?_, List.nodup_nil⟩
  intro delivery ended
  cases ended

/-- Then all deliveries are at different places. -/
theorem Group.InOrder.nodup {spec : GroupSpec F ε π ρ} {logs : Logs π ρ}
    {group : Group F ε π ρ} (inOrder : group.InOrder) (busy : group.Busy spec logs)
    {partitions : List π} (distinct : partitions.Nodup)
    : ((group.deliveries partitions).map Delivery.place).Nodup := by
  rw [deliveries, List.map_append, List.nodup_append]
  refine ⟨inOrder.distinct, busy.nodup_running distinct, ?_⟩
  rintro place ended _ running rfl
  obtain ⟨past, before, rfl⟩ := List.mem_map.mp ended
  obtain ⟨current, among, same⟩ := List.mem_map.mp running
  obtain ⟨partition, _, working⟩ := List.mem_filterMap.mp among
  have busy' := busy partition current working
  have samePartition : current.partition = past.partition := congrArg Prod.fst same
  have sameOffset : current.offset = past.offset := congrArg Prod.snd same
  have below := inOrder.once past before
  rw [← samePartition, busy'.own, ← busy'.place] at below
  omega

/-- The only delivery of the record at the position is the running one. -/
theorem Group.Once.running_unique {spec : GroupSpec F ε π ρ} {logs : Logs π ρ}
    {group : Group F ε π ρ}
    (once : group.Once) (busy : group.Busy spec logs)
    {partition : π} {current delivery : Delivery F ε π ρ}
    (working : group.running partition = some current) (delivered : group.Delivered delivery)
    (samePartition : delivery.partition = partition)
    (sameOffset : delivery.offset = current.offset)
    : delivery = current := by
  rcases delivered with ended | running
  · have below := once delivery ended
    rw [samePartition, sameOffset, (busy partition current working).place] at below
    omega
  · rw [samePartition, working] at running
    exact (Option.some.inj running).symm

/-- No record is delivered twice: deliveries at one place are the same. -/
theorem Group.InOrder.unique {spec : GroupSpec F ε π ρ} {logs : Logs π ρ}
    {group : Group F ε π ρ} (inOrder : group.InOrder) (busy : group.Busy spec logs)
    {first second : Delivery F ε π ρ} (delivered : group.Delivered first)
    (delivered' : group.Delivered second) (same : first.place = second.place)
    : first = second := by
  have samePartition : first.partition = second.partition := congrArg Prod.fst same
  have sameOffset : first.offset = second.offset := congrArg Prod.snd same
  rcases delivered' with ended' | running'
  · rcases delivered with ended | running
    · exact List.inj_on_of_nodup_map inOrder.distinct ended ended' same
    · exact (inOrder.once.running_unique busy running (Or.inl ended') samePartition.symm
        sameOffset.symm).symm
  · exact inOrder.once.running_unique busy running' delivered samePartition sameOffset

/-- The deliveries that have ended or are under way are deliveries. -/
theorem Group.Busy.delivered {spec : GroupSpec F ε π ρ} {logs : Logs π ρ}
    {group : Group F ε π ρ} (busy : group.Busy spec logs) {partitions : List π}
    {delivery : Delivery F ε π ρ} (member : delivery ∈ group.deliveries partitions)
    : group.Delivered delivery := by
  rcases List.mem_append.mp member with ended | among
  · exact Or.inl ended
  · obtain ⟨partition, _, running⟩ := List.mem_filterMap.mp among
    exact Or.inr (by rw [(busy partition delivery running).own, running])

/-- Some delivery of the record has done more than what is `quiet`. -/
def Group.Past (quiet : F.Op → Prop) (group : Group F ε π ρ) (partition : π) (offset : Nat)
    : Prop :=
  ∃ delivery,
    group.Delivered delivery
    ∧ delivery.partition = partition
    ∧ delivery.offset = offset
    ∧ ∃ event ∈ delivery.history, ¬ quiet event.op

/-- What a delivery has done stays done. -/
theorem Group.Past.follow {quiet : F.Op → Prop} {group next : Group F ε π ρ} {partition : π}
    {offset : Nat} (past : group.Past quiet partition offset) (follows : group.Follows next)
    : next.Past quiet partition offset := by
  obtain ⟨delivery, delivered, rfl, rfl, event, member, loud⟩ := past
  obtain ⟨later, more, still, samePartition, sameOffset, _, longer⟩ :=
    follows delivery delivered
  refine ⟨later, still, samePartition, sameOffset, event, ?_, loud⟩
  rw [longer]
  exact List.mem_append_left more member

/-- A running delivery that has done more than what is quiet is past its record. -/
theorem Group.past_of_running {quiet : F.Op → Prop} {group : Group F ε π ρ} {partition : π}
    {delivery : Delivery F ε π ρ} (running : group.running partition = some delivery)
    (own : delivery.partition = partition) {event : Event F}
    (member : event ∈ delivery.history) (loud : ¬ quiet event.op)
    : group.Past quiet partition delivery.offset :=
  ⟨delivery, Or.inr (by rw [own, running]), own, rfl, event, member, loud⟩

/-- A running delivery that has only been quiet is the first to go past its record. -/
theorem Group.Once.pending {quiet : F.Op → Prop} {spec : GroupSpec F ε π ρ}
    {logs : Logs π ρ} {group : Group F ε π ρ} (once : group.Once) (busy : group.Busy spec logs)
    {partition : π} {current : Delivery F ε π ρ}
    (working : group.running partition = some current)
    (silent : ∀ event ∈ current.history, quiet event.op)
    : ¬ group.Past quiet partition current.offset := by
  intro followed
  obtain ⟨delivery, delivered, samePartition, sameOffset, event, member, loud⟩ := followed
  obtain rfl := once.running_unique busy working delivered samePartition sameOffset
  exact loud (silent event member)

/-- The effects that the operations of one delivery have on the logs, one after another. -/
inductive Served (spec : GroupSpec F ε π ρ) (partition : π) (offset : Nat) (record : ρ)
    : Logs π ρ → List (Event F) → Logs π ρ → Prop
  | nil (logs : Logs π ρ) : Served spec partition offset record logs [] logs
  | cons {logs between later : Logs π ρ} {event events}
    (appended
      : ∀ history rest,
          spec.appends { partition, offset, record, history, rest } event logs between)
    (rest : Served spec partition offset record between events later)
    : Served spec partition offset record logs (event :: events) later

/-- An operation that changes no log comes before the others. -/
theorem Served.skip {spec : GroupSpec F ε π ρ} {partition : π} {offset : Nat} {record : ρ}
    {event : Event F} {events : List (Event F)} {logs later : Logs π ρ}
    (quiet : ∀ delivery, spec.appends delivery event logs logs)
    (rest : Served spec partition offset record logs events later)
    : Served spec partition offset record logs (event :: events) later :=
  .cons (fun _ _ => quiet _) rest

/-- Operations that change no log leave all as it is, by induction on the operations. -/
theorem Served.unchanged {spec : GroupSpec F ε π ρ} {partition : π} {offset : Nat} {record : ρ}
    {events : List (Event F)} (logs : Logs π ρ)
    (quiet : ∀ event ∈ events, ∀ delivery, spec.appends delivery event logs logs)
    : Served spec partition offset record logs events logs := by
  induction events with
  | nil => exact .nil logs
  | cons event events ih =>
      apply Served.skip (quiet event (List.mem_cons_self ..))
      exact ih (fun other member => quiet other (List.mem_cons_of_mem _ member))

/-- The effects of operations that follow one another, by induction on the first. -/
theorem Served.trans {spec : GroupSpec F ε π ρ} {partition : π} {offset : Nat} {record : ρ}
    {first second : List (Event F)} {logs between later : Logs π ρ}
    (served : Served spec partition offset record logs first between)
    (onward : Served spec partition offset record between second later)
    : Served spec partition offset record logs (first ++ second) later := by
  induction served with
  | nil => exact onward
  | cons appended _ ih => exact .cons appended (ih onward)

variable [DecidableEq π]

/-- The operation is carried out, or it is not and the event does not confirm it. -/
inductive Committed (spec : GroupSpec F ε π ρ) (event : Event F) (committed : π → Nat)
    : (π → Nat) → Prop
  | moved {partition offset} (asked : spec.commits event.op = some (partition, offset))
    : Committed spec event committed (Function.update committed partition offset)
  | kept (quiet : spec.confirmed event → spec.commits event.op = none)
    : Committed spec event committed committed

/-- One step of a group over the shared logs. -/
inductive GroupStep (spec : GroupSpec F ε π ρ) (logs : Logs π ρ) (group : Group F ε π ρ)
    : GroupLabel F π → Logs π ρ → Group F ε π ρ → Prop
  | deliver {partition record} (subscribed : spec.subscribed partition)
    (idle : group.running partition = none)
    (next : (logs partition)[group.position partition]? = some record)
    : GroupStep spec logs group (.deliver partition) logs
        {
          group with
          running :=
            Function.update group.running partition
              (some
                {
                  partition
                  offset := group.position partition
                  record
                  history := []
                  rest := spec.program partition (group.position partition) record
                })
        }
  | answer {partition delivery op resume later committed} (reply : F.Reply op)
    (working : group.running partition = some delivery)
    (awaits : delivery.rest = .await op resume)
    (appended : spec.appends delivery ⟨op, reply⟩ logs later)
    (commit : Committed spec ⟨op, reply⟩ group.committed committed)
    : GroupStep spec logs group (.answer partition ⟨op, reply⟩) later
        {
          group with
          committed
          running :=
            Function.update group.running partition
              (some
                {
                  delivery with
                  history := delivery.history ++ [⟨op, reply⟩]
                  rest := resume reply
                })
        }
  | resolve {partition delivery} (working : group.running partition = some delivery)
    (finished : delivery.rest = .done ())
    : GroupStep spec logs group (.resolve partition) logs
        {
          group with
          position := Function.update group.position partition (group.position partition + 1)
          running := Function.update group.running partition none
          ended := group.ended ++ [delivery]
        }
  | restart (partition : π)
    : GroupStep spec logs group (.restart partition) logs
        {
          group with
          position := Function.update group.position partition (group.committed partition)
          running := Function.update group.running partition none
          ended := group.ended ++ (group.running partition).toList
        }

section Step

variable {spec : GroupSpec F ε π ρ} {logs later : Logs π ρ} {group next : Group F ε π ρ}
  {label : GroupLabel F π} {terminal : π → Nat → ρ → List (Event F) → Prop} {limit : Nat}

/-- No step forgets a delivery, by the kind of step. -/
theorem GroupStep.follows (taken : GroupStep spec logs group label later next)
    (busy : group.Busy spec logs)
    : group.Follows next := by
  cases taken with
  | @deliver partition record subscribed idle found =>
      apply Group.follows_of_delivered
      intro delivery delivered
      rcases delivered with ended | running
      · exact Or.inl ended
      · have elsewhere : delivery.partition ≠ partition := by
          intro same
          rw [same, idle] at running
          cases running
        exact Or.inr (by simpa [Function.update_of_ne elsewhere] using running)
  | @answer partition current op resume _ committed reply working awaits appended commit =>
      intro delivery delivered
      rcases delivered with ended | running
      · exact ⟨delivery, [], Or.inl ended, rfl, rfl, rfl, (List.append_nil _).symm⟩
      · by_cases same : delivery.partition = partition
        · have here := (busy partition current working).own
          rw [same, working] at running
          obtain rfl := Option.some.inj running
          refine
            ⟨{ current with history := current.history ++ [⟨op, reply⟩], rest := resume reply },
              [⟨op, reply⟩], Or.inr ?_, rfl, rfl, rfl, rfl⟩
          simp [here]
        · refine ⟨delivery, [], Or.inr ?_, rfl, rfl, rfl, (List.append_nil _).symm⟩
          simpa [Function.update_of_ne same] using running
  | @resolve partition current working finished =>
      apply Group.follows_of_delivered
      intro delivery delivered
      rcases delivered with ended | running
      · exact Or.inl (List.mem_append_left _ ended)
      · by_cases same : delivery.partition = partition
        · rw [same, working] at running
          obtain rfl := Option.some.inj running
          exact Or.inl (by simp)
        · exact Or.inr (by simpa [Function.update_of_ne same] using running)
  | restart partition =>
      apply Group.follows_of_delivered
      intro delivery delivered
      rcases delivered with ended | running
      · exact Or.inl (List.mem_append_left _ ended)
      · by_cases same : delivery.partition = partition
        · rw [same] at running
          exact Or.inl (by simp [running])
        · exact Or.inr (by simpa [Function.update_of_ne same] using running)

/-- A step leaves the logs alone, or carries out the operation that a running delivery
awaits.
-/
theorem GroupStep.effect (taken : GroupStep spec logs group label later next)
    : later = logs
      ∨ ∃ partition current op reply resume,
          group.running partition = some current
          ∧ current.rest = .await op resume
          ∧ spec.appends current ⟨op, reply⟩ logs later
          ∧ next.running partition
            = some
                {
                  current with
                  history := current.history ++ [⟨op, reply⟩]
                  rest := resume reply
                } := by
  cases taken with
  | deliver | resolve | restart => exact Or.inl rfl
  | answer reply working awaits appended commit =>
      exact Or.inr ⟨_, _, _, reply, _, working, awaits, appended, Function.update_self ..⟩

/-- A step only appends to the logs. -/
theorem GroupStep.grows (taken : GroupStep spec logs group label later next)
    (growing : spec.Growing)
    : logs.Grow later := by
  cases taken with
  | deliver | resolve | restart => exact .refl _
  | answer reply working awaits appended commit => exact growing _ _ _ _ appended

/-- Running deliveries stay runs on their records, by the kind of step. -/
theorem Group.Busy.step (busy : group.Busy spec logs) (growing : spec.Growing)
    (taken : GroupStep spec logs group label later next)
    : next.Busy spec later := by
  intro other delivery running
  cases taken with
  | @deliver partition record subscribed idle found =>
      by_cases same : other = partition
      · subst same
        simp only [Function.update_self, Option.some.injEq] at running
        subst running
        exact ⟨subscribed, rfl, rfl, found, .refl _⟩
      · simp only [Function.update_of_ne same] at running
        have working := busy other delivery running
        exact { working with }
  | @answer partition current op resume _ committed reply working awaits appended commit =>
      have grow := growing _ _ _ _ appended
      by_cases same : other = partition
      · subst same
        simp only [Function.update_self, Option.some.injEq] at running
        subst running
        have before := busy other current working
        have run := before.run
        rw [awaits] at run
        exact ⟨before.subscribed, before.own, before.place, grow.getElem? before.found,
          run.snoc reply⟩
      · simp only [Function.update_of_ne same] at running
        have before := busy other delivery running
        exact ⟨before.subscribed, before.own, before.place, grow.getElem? before.found,
          before.run⟩
  | @resolve partition current working finished =>
      by_cases same : other = partition
      · subst same
        simp at running
      · simp only [Function.update_of_ne same] at running
        have before := busy other delivery running
        refine ⟨before.subscribed, before.own, ?_, before.found, before.run⟩
        simpa [Function.update_of_ne same] using before.place
  | restart partition =>
      by_cases same : other = partition
      · subst same
        simp at running
      · simp only [Function.update_of_ne same] at running
        have before := busy other delivery running
        refine ⟨before.subscribed, before.own, ?_, before.found, before.run⟩
        simpa [Function.update_of_ne same] using before.place

/-- What a step newly puts below the position or the committed offset has been handled: a
commit moves past the running record only, and so does the end of a delivery; witness: the
running delivery is a run of a dutiful program.
-/
theorem Group.Sound.step_below (sound : group.Sound spec terminal logs)
    (lawful : spec.Lawful terminal limit) (bounded : ∀ partition, (logs partition).length ≤ limit)
    (taken : GroupStep spec logs group label later next)
    : ∀ partition offset,
        offset < next.position partition ∨ offset < next.committed partition
        → ∃ record,
            (logs partition)[offset]? = some record
            ∧ group.Handled terminal partition offset record := by
  have dutiful : ∀ partition delivery,
      group.running partition = some delivery
      → spec.Dutiful terminal partition delivery.offset delivery.record := by
    intro partition delivery running
    have working := sound.busy partition delivery running
    obtain ⟨inLog, _⟩ := List.getElem?_eq_some_iff.mp working.found
    exact lawful.dutiful _ _ _ (Nat.lt_of_lt_of_le inLog (bounded partition))
  intro other offset below
  cases taken with
  | deliver subscribed idle found => exact sound.handled other offset below
  | @answer partition current op resume _ committed reply working awaits appended commit =>
      rcases below with below | below
      · exact sound.handled other offset (Or.inl below)
      · cases commit with
        | kept quiet => exact sound.handled other offset (Or.inr below)
        | @moved target next asked =>
            have run := (sound.busy partition current working).run
            rw [awaits] at run
            obtain ⟨rfl, rfl, ends⟩ := (dutiful partition current working).guarded run _ _ asked
            by_cases same : other = target
            · subst same
              simp only [Function.update_self] at below
              exact sound.handled_running working ends below
            · simp only [Function.update_of_ne same] at below
              exact sound.handled other offset (Or.inr below)
  | @resolve partition current working finished =>
      rcases below with below | below
      · by_cases same : other = partition
        · subst same
          have before := sound.busy other current working
          have run : Finishes (spec.program other current.offset current.record) current.history
              (.ok ()) := by
            rw [Finishes, Program.settle_ok, ← finished]
            exact before.run
          have ends := (dutiful other current working).outcome run rfl
          simp only [Function.update_self, ← before.place] at below
          exact sound.handled_running working ends below
        · simp only [Function.update_of_ne same] at below
          exact sound.handled other offset (Or.inl below)
      · exact sound.handled other offset (Or.inr below)
  | restart partition =>
      rcases below with below | below
      · by_cases same : other = partition
        · subst same
          simp only [Function.update_self] at below
          exact sound.handled other offset (Or.inr below)
        · simp only [Function.update_of_ne same] at below
          exact sound.handled other offset (Or.inl below)
      · exact sound.handled other offset (Or.inr below)

/-- Every step of a lawful group keeps it sound. -/
theorem Group.Sound.step (sound : group.Sound spec terminal logs)
    (lawful : spec.Lawful terminal limit) (bounded : ∀ partition, (logs partition).length ≤ limit)
    (taken : GroupStep spec logs group label later next)
    : next.Sound spec terminal later := by
  refine ⟨sound.busy.step lawful.growing taken, ?_⟩
  intro partition offset below
  obtain ⟨record, found, handled⟩ :=
    sound.step_below lawful bounded taken partition offset below
  exact ⟨record, (taken.grows lawful.growing).getElem? found,
    handled.follow (taken.follows sound.busy) (lawful.lasting _ _ _)⟩

/-- A delivery after a step was one before it, has just begun, or has just been answered, by
the kind of step.
-/
theorem GroupStep.delivered (taken : GroupStep spec logs group label later next)
    (busy : group.Busy spec logs)
    {delivery : Delivery F ε π ρ} (delivered : next.Delivered delivery)
    : group.Delivered delivery
      ∨ delivery.history = []
      ∨ ∃ partition current event resume,
          group.running partition = some current
          ∧ current.rest = .await event.op resume
          ∧ delivery.partition = current.partition
          ∧ delivery.record = current.record
          ∧ delivery.history = current.history ++ [event]
          ∧ spec.appends current event logs later := by
  cases taken with
  | @deliver partition record subscribed idle found =>
      rcases delivered with ended | running
      · exact Or.inl (Or.inl ended)
      · by_cases same : delivery.partition = partition
        · simp only [same, Function.update_self, Option.some.injEq] at running
          exact Or.inr (Or.inl (by rw [← running]))
        · simp only [Function.update_of_ne same] at running
          exact Or.inl (Or.inr running)
  | @answer partition current op resume _ committed reply working awaits appended commit =>
      rcases delivered with ended | running
      · exact Or.inl (Or.inl ended)
      · by_cases same : delivery.partition = partition
        · simp only [same, Function.update_self, Option.some.injEq] at running
          refine
            Or.inr (Or.inr ⟨partition, current, _, resume, working, awaits, ?_, ?_, ?_, appended⟩)
          · rw [← running]
          · rw [← running]
          · rw [← running]
        · simp only [Function.update_of_ne same] at running
          exact Or.inl (Or.inr running)
  | @resolve partition current working finished =>
      rcases delivered with ended | running
      · rcases List.mem_append.mp ended with before | now
        · exact Or.inl (Or.inl before)
        · obtain rfl := List.mem_singleton.mp now
          exact Or.inl (Or.inr (by rw [(busy partition delivery working).own, working]))
      · by_cases same : delivery.partition = partition
        · simp [same] at running
        · simp only [Function.update_of_ne same] at running
          exact Or.inl (Or.inr running)
  | restart partition =>
      rcases delivered with ended | running
      · rcases List.mem_append.mp ended with before | now
        · exact Or.inl (Or.inl before)
        · have working : group.running partition = some delivery := by
            simpa [eq_comm] using now
          exact Or.inl (Or.inr (by rw [(busy partition delivery working).own, working]))
      · by_cases same : delivery.partition = partition
        · simp [same] at running
        · simp only [Function.update_of_ne same] at running
          exact Or.inl (Or.inr running)

/-- Every step keeps what the answers have left, by the origin of each delivery. -/
theorem Group.Kept.step {kept : ρ → Event F → Logs π ρ → Prop} (holds : group.Kept kept logs)
    (leaves : spec.Leaves kept) (growing : spec.Growing) (busy : group.Busy spec logs)
    (taken : GroupStep spec logs group label later next)
    : next.Kept kept later := by
  have grow := taken.grows growing
  intro delivery delivered event member
  rcases taken.delivered busy delivered with before | fresh | answered
  · exact leaves.stays _ _ _ _ grow (holds delivery before event member)
  · simp [fresh] at member
  · obtain ⟨partition, current, last, _, running, _, _, sameRecord, longer, appended⟩ := answered
    rw [sameRecord]
    rw [longer] at member
    rcases List.mem_append.mp member with earlier | now
    · have before : group.Delivered current :=
        Or.inr (by rw [(busy partition current running).own, running])
      exact leaves.stays _ _ _ _ grow (holds current before event earlier)
    · obtain rfl := List.mem_singleton.mp now
      exact leaves.left _ _ _ _ appended

/-- Without a restart no record is delivered again, by the kind of step. -/
theorem Group.Once.step (once : group.Once) (busy : group.Busy spec logs)
    (steady : label.Steady) (taken : GroupStep spec logs group label later next)
    : next.Once := by
  cases taken with
  | deliver subscribed idle found => exact once
  | answer reply working awaits appended commit => exact once
  | restart partition => exact steady.elim
  | @resolve partition current working finished =>
      have own := busy partition current working
      intro delivery ended
      rcases List.mem_append.mp ended with before | now
      · have below := once delivery before
        by_cases same : delivery.partition = partition
        · rw [same] at below
          simp only [same, Function.update_self]
          omega
        · simpa [Function.update_of_ne same] using below
      · obtain rfl := List.mem_singleton.mp now
        simp only [own.own, Function.update_self, own.place]
        omega

/-- A delivery that has ended after a step was one before it, by the kind of step. -/
theorem GroupStep.ended (taken : GroupStep spec logs group label later next)
    (busy : group.Busy spec logs) {delivery : Delivery F ε π ρ}
    (ended : delivery ∈ next.ended)
    : group.Delivered delivery := by
  cases taken with
  | deliver | answer => exact Or.inl ended
  | @resolve partition current working finished =>
      rcases List.mem_append.mp ended with before | now
      · exact Or.inl before
      · obtain rfl := List.mem_singleton.mp now
        exact Or.inr (by rw [(busy partition delivery working).own, working])
  | restart partition =>
      rcases List.mem_append.mp ended with before | now
      · exact Or.inl before
      · have working : group.running partition = some delivery := by
          simpa [eq_comm] using now
        exact Or.inr (by rw [(busy partition delivery working).own, working])

/-- Deliveries stay genuine: one that is under way is at work on its record, and one that has
ended was a delivery before.
-/
theorem Group.Genuine.step (genuine : group.Genuine spec logs) (growing : spec.Growing)
    (busy : group.Busy spec logs) (taken : GroupStep spec logs group label later next)
    : next.Genuine spec later := by
  intro delivery delivered
  rcases delivered with ended | running
  · exact (genuine.grow (taken.grows growing)) delivery (taken.ended busy ended)
  · have working := busy.step growing taken delivery.partition delivery running
    exact ⟨working.subscribed, working.found, working.run⟩

/-- Without a restart no record is delivered again, by the kind of step. -/
theorem Group.InOrder.step (inOrder : group.InOrder) (busy : group.Busy spec logs)
    (steady : label.Steady) (taken : GroupStep spec logs group label later next)
    : next.InOrder := by
  refine ⟨inOrder.once.step busy steady taken, ?_⟩
  cases taken with
  | deliver subscribed idle found => exact inOrder.distinct
  | answer reply working awaits appended commit => exact inOrder.distinct
  | restart partition => exact steady.elim
  | @resolve partition current working finished =>
      have own := busy partition current working
      rw [List.map_append, List.nodup_append]
      refine ⟨inOrder.distinct, by simp, ?_⟩
      rintro place ended _ last rfl
      obtain ⟨past, before, rfl⟩ := List.mem_map.mp ended
      have same := List.mem_singleton.mp last
      have samePartition : past.partition = current.partition := congrArg Prod.fst same
      have sameOffset : past.offset = current.offset := congrArg Prod.snd same
      have below := inOrder.once past before
      rw [samePartition, own.own, ← own.place] at below
      omega

end Step

/-- The committed offsets after an event, where its commit is carried out if it is one. -/
def GroupSpec.move (spec : GroupSpec F ε π ρ) (committed : π → Nat) (event : Event F)
    : π → Nat :=
  match spec.commits event.op with
  | some (partition, offset) => Function.update committed partition offset
  | none => committed

theorem GroupSpec.committed_move (spec : GroupSpec F ε π ρ) (committed : π → Nat)
    (event : Event F)
    : Committed spec event committed (spec.move committed event) := by
  unfold GroupSpec.move
  split
  · rename_i asked
    exact .moved asked
  · rename_i quiet
    exact .kept (fun _ => quiet)

section Serve

variable {σ ι : Type} {step : σ → ι → σ → Prop} {spec : GroupSpec F ε π ρ}
  {embed : Logs π ρ → Group F ε π ρ → σ} {wrap : GroupLabel F π → ι}

/-- A system that lets one group run answers the operations of its delivery, by induction on
the run.
-/
theorem Served.execution
    (lift
      : ∀ logs group label later next,
          label.Steady
          → GroupStep spec logs group label later next
          → step (embed logs group) (wrap label) (embed later next))
    {partition : π} {offset : Nat} {record : ρ} {history events : List (Event F)}
    {program rest : Program F ε Unit} {logs later : Logs π ρ} {group : Group F ε π ρ}
    (served : Served spec partition offset record logs events later)
    (run : Run program events rest)
    (running
      : group.running partition
        = some { partition, offset, record, history, rest := program })
    : Execution step (embed logs group)
        (events.map (fun event => wrap (.answer partition event)))
        (embed later
          {
            group with
            committed := events.foldl spec.move group.committed
            running :=
              Function.update group.running partition
                (some { partition, offset, record, history := history ++ events, rest })
          }) := by
  induction run generalizing logs group history with
  | refl program =>
      cases served
      have unchanged
          : Function.update group.running partition
              (some { partition, offset, record, history := history ++ [], rest := program })
            = group.running := by
        rw [List.append_nil, ← running, Function.update_eq_self]
      rw [unchanged]
      exact .start
  | @step op resume events rest reply _ ih =>
      cases served with
      | @cons _ between _ _ _ appended served =>
          have commit := spec.committed_move group.committed ⟨op, reply⟩
          have taken := GroupStep.answer reply running rfl (appended _ _) commit
          have onward := @ih (history ++ [⟨op, reply⟩]) between
            {
              group with
              committed := spec.move group.committed ⟨op, reply⟩
              running :=
                Function.update group.running partition
                  (some
                    {
                      partition
                      offset
                      record
                      history := history ++ [⟨op, reply⟩]
                      rest := resume reply
                    })
            }
            served (Function.update_self ..)
          simp only [Function.update_idem, List.append_assoc, List.singleton_append] at onward
          exact .cons (lift _ _ (.answer partition ⟨op, reply⟩) _ _ trivial taken) onward

/-- A system that lets one group run delivers its next record to the end. -/
theorem Served.delivery
    (lift
      : ∀ logs group label later next,
          label.Steady
          → GroupStep spec logs group label later next
          → step (embed logs group) (wrap label) (embed later next))
    {partition : π} {record : ρ} {events : List (Event F)} {logs later : Logs π ρ}
    {group : Group F ε π ρ} (subscribed : spec.subscribed partition)
    (idle : group.running partition = none)
    (next : (logs partition)[group.position partition]? = some record)
    (served : Served spec partition (group.position partition) record logs events later)
    (run
      : Finishes (spec.program partition (group.position partition) record) events (.ok ()))
    : ∃ labels final,
        Execution step (embed logs group) labels (embed later final)
        ∧ final.running = group.running
        ∧ final.position
          = Function.update group.position partition (group.position partition + 1)
        ∧ final.committed = events.foldl spec.move group.committed := by
  have begun :=
    lift _ _ (.deliver partition) _ _ trivial (GroupStep.deliver subscribed idle next)
  have going :=
    @Served.execution _ _ _ _ _ _ _ _ _ _ _ lift partition (group.position partition) record []
      events _ (.done ()) logs later
      {
        group with
        running :=
          Function.update group.running partition
            (some
              {
                partition
                offset := group.position partition
                record
                history := []
                rest := spec.program partition (group.position partition) record
              })
      }
      served run (Function.update_self ..)
  refine
    ⟨_, _,
      .snoc (.cons begun going)
        (lift _ _ (.resolve partition) _ _ trivial
          (@GroupStep.resolve _ _ _ _ _ _ _ _ _
            {
              partition
              offset := group.position partition
              record
              history := [] ++ events
              rest := .done ()
            }
            ?_ rfl)),
      ?_, rfl, rfl⟩
  · exact Function.update_self ..
  · simp only [Function.update_idem, ← idle, Function.update_eq_self]

end Serve
end Group
end Foundation
