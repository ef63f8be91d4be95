import Switchboard.Proofs.History
import Switchboard.Proofs.Network
import Switchboard.Proofs.Producer.Telling

/-!
# Runs of a client

A client is a producer with the task that drives it, on the near side of a connection. In a run its owner
sends, asks and forgets, its task takes events and ticks, and the connection moves, in any order. A run is
kept as the list of its turns: what a send came to, who was told what, and the client before and after.
-/

namespace Switchboard

/-! ## Connections -/

/-- The reader of the near side fails and ends. -/
def WebLink.fail (l : WebLink) : WebLink :=
  if l.near.reading then { l with near := l.near.endReading } else l

namespace Connection

def carrier : Carrier Connection := ⟨fun c e data => c.send e.side data⟩

/-- What happens on a connection, apart from sending and taking on its near side. -/
inductive Motion where
  | close (s : Side)
  /-- The far side sends. -/
  | answer (data : Bytes)
  /-- The far side takes an event, or drops its stream. -/
  | take
  | drop
  /-- The sender of a side passes a frame on. -/
  | pass (s : Side)
  | read (s : Side)
  /-- A frame arrives at the near side, from anywhere. -/
  | arrive (f : Frame)
  | hangUp
  | fail

def overWeb (f : WebLink → WebLink) : Connection → Connection
  | memory l => memory l
  | web l => web (f l)
  | rehearsed l => rehearsed l

def move (c : Connection) : Motion → Connection
  | .close s => c.close s
  | .answer data => (c.send .far data).2
  | .take => (c.take .far).2
  | .drop => c.drop .far
  | .pass s => c.overWeb fun l => (l.passOn? s).getD l
  | .read s => c.overWeb fun l => (l.read? s).getD l
  | .arrive f => c.overWeb (·.arrive .near f)
  | .hangUp => c.overWeb (·.hangUp)
  | .fail => c.overWeb (·.fail)

end Connection

/-! ## What becomes of the tracker -/

namespace Producer

variable {κ : Type} (p : Producer κ) (now : Nat)

theorem tracker_tell (waiter : Waiter κ) (id : UInt32) (outcome : Except Failure Bytes) :
    (p.tell waiter id outcome).2.tracker = p.tracker := by
  unfold tell
  split
  · rfl
  · split <;> rfl

theorem tracker_tellTimeouts : ∀ (requests : List (UInt32 × Waiter κ)) (p : Producer κ),
    (tellTimeouts requests p).2.tracker = p.tracker
  | [], _ => rfl
  | (id, waiter) :: rest, p => (tracker_tellTimeouts rest _).trans (p.tracker_tell waiter id _)

theorem tracker_sweep : (p.sweep now).2.2.tracker = (p.tracker.sweep now).2 := tracker_tellTimeouts _ _

theorem result_request {ω : Type} (c : Carrier ω) (data : Bytes) (w : ω) :
    (p.request c data now w).1.map (·.id) = (c.send w p.broker data).1 := by
  simp only [request, sendWith]
  cases (c.send w p.broker data).1 <;> rfl

theorem handleEvent_heard (event : Event) :
    p.heard now event = [] ∧ (p.handleEvent event).2.tracker = p.tracker ∨
      ∃ a : Answered κ, p.tracker.pending.get? a.id = some a.request ∧
        p.heard now event = [⟨a.id, a.request.callback, .ok a.answer, now⟩] ∧
        (p.handleEvent event).2.tracker = (p.tracker.answer a.id).2 := by
  unfold heard
  cases h : p.answered? event with
  | none =>
    rw [handleEvent_of_unanswered h]
    exact .inl ⟨rfl, rfl⟩
  | some a =>
    obtain ⟨-, -, hg⟩ := answered?_spec h
    rw [handleEvent_of_answered h, tracker_tell]
    exact .inr ⟨a, hg, rfl, rfl⟩

end Producer

/-! ## Turns -/

structure Client (κ : Type) where
  connection : Connection
  task : Producer.Task κ
  now : Nat

namespace Client

variable {κ : Type}

def producer (c : Client κ) : Producer κ := c.task.producer

def tracker (c : Client κ) : Tracker (Waiter κ) := c.producer.tracker

def stage (c : Client κ) : Producer.Stage := c.task.stage

/-- A client that has asked nothing yet, of a peer called `peer`. -/
def fresh (connection : Connection) (peer : Address) (options : ProducerOptions) (now : Nat) : Client κ :=
  ⟨connection, ⟨.ofOptions ⟨peer, 0, .near⟩ options, .serving⟩, now⟩

inductive Act (κ : Type) where
  | send (data : Bytes)
  | request (data : Bytes) (timeout : Option Nat) (callback : κ)
  /-- Send a request and keep its first outcome. -/
  | ask (data : Bytes)
  | forget (id : UInt32)
  /-- The task takes an event. -/
  | take
  | tick
  | wait (ms : Nat)
  | elsewhere (m : Connection.Motion)

structure Turn (κ : Type) where
  before : Client κ
  act : Act κ
  /-- What a send came to. -/
  result : Option (Except Failure UInt32)
  told : List (Told κ)
  notices : List (Notice κ)
  after : Client κ

def turn (c : Client κ) : Act κ → Turn κ
  | .send data =>
    let r := c.producer.send Connection.carrier data c.connection
    ⟨c, .send data, some r.1, [], [], { c with connection := r.2 }⟩
  | .request data timeout callback =>
    let r := c.producer.sendWith Connection.carrier data timeout (.callback callback) c.now c.connection
    ⟨c, .request data timeout callback, some r.1, [], [], ⟨r.2.2, ⟨r.2.1, c.stage⟩, c.now⟩⟩
  | .ask data =>
    let r := c.producer.request Connection.carrier data c.now c.connection
    ⟨c, .ask data, some (r.1.map (·.id)), [], [], ⟨r.2.2, ⟨r.2.1, c.stage⟩, c.now⟩⟩
  | .forget id => ⟨c, .forget id, none, [], [], { c with task := ⟨(c.producer.forget id).2, c.stage⟩ }⟩
  | .take =>
    match c.stage, c.connection.take .near with
    | .serving, (some event, connection) =>
      let r := c.task.handleEvent event
      ⟨c, .take, none, c.producer.heard c.now event, r.1, ⟨connection, r.2, c.now⟩⟩
    | _, _ => ⟨c, .take, none, [], [], c⟩
  | .tick =>
    let r := c.task.tick c.now
    let told := if c.stage = .finished then [] else Producer.expired c.now (c.tracker.sweep c.now).1
    ⟨c, .tick, none, told, r.1, { c with task := r.2 }⟩
  | .wait ms => ⟨c, .wait ms, none, [], [], { c with now := c.now + ms }⟩
  | .elsewhere m => ⟨c, .elsewhere m, none, [], [], { c with connection := c.connection.move m }⟩

/-- The request that a turn tries to send. -/
def Turn.request? (t : Turn κ) : Option (PendingRequest (Waiter κ)) :=
  let timeout := t.before.producer.options.requestTimeout
  match t.act with
  | .request data own callback => some ⟨data, .callback callback, t.before.now + own.getD timeout⟩
  | .ask data => some ⟨data, .future t.before.producer.futures, t.before.now + timeout⟩
  | _ => none

/-- A turn sends a request, which is accepted under an id. -/
def Turn.Accepts (t : Turn κ) (id : UInt32) (r : PendingRequest (Waiter κ)) : Prop :=
  t.result = some (.ok id) ∧ t.request? = some r

/-- What a turn does to the tracker. -/
inductive Turn.Books (t : Turn κ) : Prop
  | same (ht : t.told = []) (h : t.after.tracker = t.before.tracker)
  | accepted {id : UInt32} {r : PendingRequest (Waiter κ)} (hr : t.Accepts id r) (ht : t.told = [])
      (h : t.after.tracker = t.before.tracker.add id r)
  | forgotten {id : UInt32} (ha : t.act = .forget id) (ht : t.told = [])
      (h : t.after.tracker = (t.before.tracker.remove id).2)
  | answered {a : Producer.Answered κ} (hs : t.before.stage = .serving)
      (hg : t.before.tracker.pending.get? a.id = some a.request)
      (ht : t.told = [⟨a.id, a.request.callback, .ok a.answer, t.before.now⟩])
      (h : t.after.tracker = (t.before.tracker.answer a.id).2)
  | swept (hs : t.before.stage ≠ .finished)
      (ht : t.told = Producer.expired t.before.now (t.before.tracker.sweep t.before.now).1)
      (h : t.after.tracker = (t.before.tracker.sweep t.before.now).2)

/-- What a turn does to the connection. -/
inductive Turn.Wires (t : Turn κ) : Prop
  | sent (data : Bytes) (ha : ∀ m, t.act ≠ .elsewhere m)
      (hr : t.result = some (t.before.connection.send t.before.producer.broker.side data).1)
      (h : t.after.connection = (t.before.connection.send t.before.producer.broker.side data).2)
  | took {event : Event} (ha : t.act = .take) (hr : t.result = none)
      (h : t.before.connection.take .near = (some event, t.after.connection))
  | moved (m : Connection.Motion) (ha : t.act = .elsewhere m) (hr : t.result = none)
      (h : t.after.connection = t.before.connection.move m)
  | still (ha : ∀ m, t.act ≠ .elsewhere m) (hr : t.result = none)
      (h : t.after.connection = t.before.connection)

/-- What a turn does to the stage. -/
inductive Turn.Stages (t : Turn κ) : Prop
  | same (h : t.after.stage = t.before.stage)
  | ended (ha : t.act = .take) (hs : t.before.stage = .serving)
      (hd : (t.before.connection.take .near).1 = some .disconnected)
      (h : t.after.stage = Producer.Task.settleStage t.after.producer)
  | drained (ha : t.act = .tick) (hs : t.before.stage = .draining)
      (h : t.after.stage = Producer.Task.settleStage t.after.producer)

section
variable (c : Client κ) (a : Act κ)

theorem turn_before : (c.turn a).before = c := by
  cases a with
  | take => unfold turn; dsimp only; split <;> rfl
  | _ => rfl

theorem Turn.books_of_addSent {t : Turn κ} {r : PendingRequest (Waiter κ)} {x : Except Failure UInt32}
    (hr : t.request? = some r) (hx : t.result = some x) (ht : t.told = [])
    (h : t.after.tracker = t.before.tracker.addSent r x) : t.Books := by
  cases x with
  | error f => exact .same ht h
  | ok id => exact .accepted ⟨hx, hr⟩ ht h

theorem turn_books : (c.turn a).Books := by
  cases a with
  | send data => exact .same rfl rfl
  | request data timeout callback => exact Turn.books_of_addSent rfl rfl rfl rfl
  | ask data => exact Turn.books_of_addSent rfl (congrArg some (c.producer.result_request c.now _ data _)) rfl rfl
  | forget id => exact .forgotten rfl rfl rfl
  | take =>
    simp only [turn]
    split
    · next hs ht =>
      rcases c.producer.handleEvent_heard c.now _ with ⟨hh, he⟩ | ⟨a, hg, hh, he⟩
      · exact .same hh he
      · exact .answered hs hg hh he
    · exact .same rfl rfl
  | tick =>
    simp only [turn, Producer.Task.tick]
    cases hs : c.stage with
    | finished =>
      rw [show c.task.stage = .finished from hs]
      exact .same rfl rfl
    | serving =>
      rw [show c.task.stage = .serving from hs]
      exact .swept (by simp [hs]) rfl (c.producer.tracker_sweep c.now)
    | draining =>
      rw [show c.task.stage = .draining from hs]
      exact .swept (by simp [hs]) rfl (c.producer.tracker_sweep c.now)
  | wait ms => exact .same rfl rfl
  | elsewhere m => exact .same rfl rfl

theorem turn_asks {r : PendingRequest (Waiter κ)} (hr : (c.turn a).request? = some r) :
    ∃ x, (c.turn a).result = some x ∧ (c.turn a).after.tracker = (c.turn a).before.tracker.addSent r x := by
  cases a with
  | request data timeout callback =>
    cases hr
    exact ⟨_, rfl, rfl⟩
  | ask data =>
    cases hr
    exact ⟨_, congrArg some (c.producer.result_request c.now _ data _), rfl⟩
  | take =>
    simp only [turn] at hr
    split at hr <;> cases hr
  | _ => cases hr

theorem turn_wires : (c.turn a).Wires := by
  cases a with
  | send data => exact .sent data (fun m h => by cases h) rfl rfl
  | request data timeout callback => exact .sent data (fun m h => by cases h) rfl rfl
  | ask data =>
    exact .sent data (fun m h => by cases h) (congrArg some (c.producer.result_request c.now _ data _)) rfl
  | forget id => exact .still (fun m h => by cases h) rfl rfl
  | take =>
    simp only [turn]
    split
    · next hs ht => exact .took rfl rfl ht
    · exact .still (fun m h => by cases h) rfl rfl
  | tick => exact .still (fun m h => by cases h) rfl rfl
  | wait ms => exact .still (fun m h => by cases h) rfl rfl
  | elsewhere m => exact .moved m rfl rfl rfl

theorem turn_stages : (c.turn a).Stages := by
  cases a with
  | take =>
    simp only [turn]
    split
    · next event connection hs ht =>
      cases event with
      | disconnected => exact .ended rfl hs (by dsimp only; rw [ht]) rfl
      | connected => exact .same rfl
      | received id data => exact .same rfl
    · exact .same rfl
  | tick =>
    simp only [turn, Producer.Task.tick]
    cases hs : c.task.stage with
    | finished => exact .same rfl
    | serving => exact .same hs.symm
    | draining => exact .drained rfl hs rfl
  | _ => exact .same rfl

theorem turn_broker : (c.turn a).after.producer.broker = c.producer.broker := by
  cases a with
  | take =>
    simp only [turn]
    split
    · exact (c.producer.keeps_handleEvent _).broker
    · rfl
  | tick => exact (Producer.keeps_tick c.task c.now).broker
  | _ => rfl

theorem turn_tells : c.producer.Tells (c.turn a).told (c.turn a).notices (c.turn a).after.producer := by
  cases a with
  | take =>
    simp only [turn]
    split
    · exact c.producer.tells_handleEvent c.now _
    · exact .of_eq _ rfl
  | tick =>
    simp only [turn, Producer.Task.tick]
    cases hs : c.stage with
    | finished =>
      rw [show c.task.stage = .finished from hs]
      exact .of_eq _ rfl
    | serving =>
      rw [show c.task.stage = .serving from hs]
      exact c.producer.tells_sweep c.now
    | draining =>
      rw [show c.task.stage = .draining from hs]
      exact c.producer.tells_sweep c.now
  | _ => exact .of_eq _ rfl

structure Turn.Occurs (t : Turn κ) : Prop where
  books : t.Books
  asks : ∀ {r}, t.request? = some r → ∃ x, t.result = some x ∧ t.after.tracker = t.before.tracker.addSent r x
  wires : t.Wires
  stages : t.Stages
  broker : t.after.producer.broker = t.before.producer.broker
  tells : t.before.producer.Tells t.told t.notices t.after.producer

theorem turn_occurs : (c.turn a).Occurs := by
  have hb := turn_before c a
  refine ⟨turn_books c a, turn_asks c a, turn_wires c a, turn_stages c a, ?_, ?_⟩ <;> rw [hb]
  · exact turn_broker c a
  · exact turn_tells c a

end

/-! ## Runs -/

/-- A run from `start` through the given turns. -/
inductive Run (start : Client κ) : List (Turn κ) → Client κ → Prop
  | start : Run start [] start
  | next {turns : List (Turn κ)} {c : Client κ} (h : Run start turns c) (a : Act κ) :
      Run start (turns ++ [c.turn a]) (c.turn a).after

section
variable {c₀ c c' : Client κ} {turns : List (Turn κ)}

theorem Run.induct {P : List (Turn κ) → Client κ → Prop} (base : P [] c₀)
    (step : ∀ turns t, Run c₀ turns t.before → t.Occurs → P turns t.before → P (turns ++ [t]) t.after)
    (h : Run c₀ turns c) : P turns c := by
  induction h with
  | start => exact base
  | @next turns c h a ih =>
    have hb := turn_before c a
    exact step turns _ (by rw [hb]; exact h) (turn_occurs c a) (by rw [hb]; exact ih)

theorem Run.of_split (h : Run c₀ turns c) : ∀ {past t future}, turns = past ++ t :: future →
    t.Occurs ∧ Run c₀ past t.before ∧ Run t.after future c := by
  induction h with
  | start =>
    intro past t future hs
    simp at hs
  | @next turns c h a ih =>
    intro past t future hs
    rcases snoc_split hs with ⟨rfl, rfl⟩ | ⟨future', rfl, hs'⟩
    · have hf : future = [] := by simpa using hs
      subst hf
      rw [turn_before]
      exact ⟨turn_occurs c a, h, .start⟩
    · obtain ⟨ht, hp, hf⟩ := ih hs'
      exact ⟨ht, hp, hf.next a⟩

theorem Run.broker (h : Run c₀ turns c) : c.producer.broker = c₀.producer.broker :=
  h.induct (P := fun _ c => c.producer.broker = c₀.producer.broker) rfl fun _ _ _ ht ih => ht.broker.trans ih

theorem Run.tells (h : Run c₀ turns c) :
    c₀.producer.Tells (turns.flatMap (·.told)) (turns.flatMap (·.notices)) c.producer := by
  refine h.induct (P := fun turns c => c₀.producer.Tells (turns.flatMap (·.told)) (turns.flatMap (·.notices))
    c.producer) (.of_eq _ rfl) fun turns t _ ht ih => ?_
  simp only [List.flatMap_append, List.flatMap_singleton]
  exact ih.trans ht.tells

end

end Client

end Switchboard
