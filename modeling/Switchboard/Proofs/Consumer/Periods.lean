import Mathlib.Data.List.DropRight
import Switchboard.Proofs.Consumer
import Switchboard.Proofs.History

/-!
# The periods of a consumer

A `disconnected` ends a period and begins the next one. The first acknowledgement of a period is the end of
the handshake; every other datagram goes to the handler. What a consumer does at an event hangs on the
events of the period and on nothing else: neither on what its sends came to nor on earlier answers of its
handler (`feed_follows_periods`).
-/

namespace Switchboard

def Event.acknowledges : Event → Bool
  | .received _ data => data = helloAck
  | .connected | .disconnected => false

namespace Consumer

/-! ## Periods -/

/-- The events behind the last `disconnected`, or all of them. -/
def period (past : List Event) : List Event := past.rtakeWhile (· ≠ .disconnected)

def acknowledged (past : List Event) : Bool := (period past).any (·.acknowledges)

theorem acknowledged_disconnected (past : List Event) : acknowledged (past ++ [.disconnected]) = false := by
  rw [acknowledged, period, List.rtakeWhile_concat_neg _ _ _ (by simp)]
  rfl

theorem acknowledged_snoc (past : List Event) {event : Event} (he : event ≠ .disconnected) :
    acknowledged (past ++ [event]) = (acknowledged past || event.acknowledges) := by
  rw [acknowledged, period, List.rtakeWhile_concat_pos _ _ _ (by simpa using he), List.any_append]
  simp [acknowledged, period]

/-- What a consumer is to do at an event, in terms of the events before it: what its handler is given, and
what it tries to send. -/
inductive Due (handler : Handler) (commands : List String) (past : List Event) :
    Event → Option Parcel → List Bytes → Prop
  | connected : Due handler commands past .connected none [Switchboard.hello]
  | disconnected : Due handler commands past .disconnected none []
  | handshake (id : UInt32) (first : acknowledged past = false) :
      Due handler commands past (.received id helloAck) none
        (commands.map fun command => (Control.subscribe command).toBytes)
  | answered (id : UInt32) (data answer : Bytes) (hd : data = helloAck → acknowledged past = true)
      (ha : handler ⟨id, data⟩ = some answer) (hn : answer ≠ []) :
      Due handler commands past (.received id data) (some ⟨id, data⟩) [Packet.encode ⟨id, answer⟩]
  | unanswered (id : UInt32) (data : Bytes) (hd : data = helloAck → acknowledged past = true)
      (ha : handler ⟨id, data⟩ = none ∨ handler ⟨id, data⟩ = some []) :
      Due handler commands past (.received id data) (some ⟨id, data⟩) []

section
variable {handler : Handler} {commands : List String} {past : List Event} {event : Event}
  {given : Option Parcel} {said : List Bytes} {k k' : Consumer}

theorem Due.unique {given' : Option Parcel} {said' : List Bytes} (h : Due handler commands past event given said)
    (h' : Due handler commands past event given' said') : given = given' ∧ said = said' := by
  have clash : ∀ {data : Bytes}, (data = helloAck → acknowledged past = true) → acknowledged past = false →
      data ≠ helloAck := fun hd hf hdata => by rw [hd hdata] at hf; cases hf
  cases h with
  | connected => cases h'; exact ⟨rfl, rfl⟩
  | disconnected => cases h'; exact ⟨rfl, rfl⟩
  | handshake id first =>
    cases h' with
    | handshake => exact ⟨rfl, rfl⟩
    | answered _ _ _ hd => exact absurd rfl (clash hd first)
    | unanswered _ _ hd => exact absurd rfl (clash hd first)
  | answered id data answer hd ha hn =>
    cases h' with
    | handshake _ first => exact absurd rfl (clash hd first)
    | answered _ _ answer' _ ha' =>
      obtain rfl := Option.some.inj (ha.symm.trans ha')
      exact ⟨rfl, rfl⟩
    | unanswered _ _ _ ha' =>
      rw [ha] at ha'
      simp [hn] at ha'
  | unanswered id data hd ha =>
    cases h' with
    | handshake _ first => exact absurd rfl (clash hd first)
    | answered _ _ answer' _ ha' hn =>
      rw [ha'] at ha
      simp [hn] at ha
    | unanswered => exact ⟨rfl, rfl⟩

theorem Reacts.registered_eq (h : Reacts handler k event given said k') (hk : k.registered = acknowledged past) :
    k'.registered = acknowledged (past ++ [event]) := by
  cases h with
  | connected =>
    rw [acknowledged_snoc past (by simp), hk]
    exact (Bool.or_false _).symm
  | disconnected => rw [acknowledged_disconnected]
  | registered id hn =>
    rw [acknowledged_snoc past (by simp)]
    simp [Event.acknowledges]
  | delivered id data hd =>
    rw [acknowledged_snoc past (by simp), ← hk]
    by_cases ha : data = helloAck
    · simp [hd ha]
    · simp [Event.acknowledges, ha]

theorem Reacts.due (h : Reacts handler k event given said k') (hk : k.registered = acknowledged past) :
    Due handler k.commands past event given said := by
  cases h with
  | connected => exact .connected
  | disconnected => exact .disconnected
  | registered id hn => exact .handshake id (hk ▸ hn)
  | delivered id data hd =>
    rw [hk] at hd
    unfold replies
    cases ha : handler ⟨id, data⟩ with
    | none => exact .unanswered id data hd (.inl ha)
    | some answer =>
      by_cases hn : answer = []
      · subst hn
        exact .unanswered id data hd (.inr ha)
      · obtain ⟨x, xs, rfl⟩ := List.exists_cons_of_ne_nil hn
        exact .answered id data _ hd ha hn

theorem Reacts.configuration (h : Reacts handler k event given said k') :
    k'.broker = k.broker ∧ k'.commands = k.commands := by
  cases h <;> exact ⟨rfl, rfl⟩

end

/-! ## Feeding events to a consumer -/

/-- An event that was fed to a consumer: the handler of the time, what this was given, what was sent, and
whether the consumer was registered afterwards. -/
structure Turn where
  event : Event
  handler : Handler
  given : Option Parcel
  sent : List Sending
  registered : Bool

def Turn.input (t : Turn) : Event × Handler := (t.event, t.handler)

def Turn.attempts (t : Turn) : List Bytes := t.sent.map (·.data)

structure Course (ω : Type) where
  turns : List Turn
  consumer : Consumer
  world : ω

section
variable {ω : Type}

/-- Act on events, one after the other. A handler with a memory is another handler each time. -/
def heed (c : Carrier ω) (k : Consumer) (w : ω) (inputs : List (Event × Handler)) : Consumer × ω :=
  inputs.foldl (fun s input => (s.1.handleEvent c input.2 input.1 s.2).2) (k, w)

def Course.next (c : Carrier ω) (s : Course ω) (input : Event × Handler) : Course ω :=
  let r := s.consumer.handleEvent c.recorded input.2 input.1 (s.world, [])
  ⟨s.turns ++ [⟨input.1, input.2, r.1, r.2.2.2, r.2.1.registered⟩], r.2.1, r.2.2.1⟩

/-- Act on events, one after the other, and keep a record of it. -/
def feed (c : Carrier ω) (k : Consumer) (w : ω) (inputs : List (Event × Handler)) : Course ω :=
  inputs.foldl (Course.next c) ⟨[], k, w⟩

/-- A consumer that was told its commands in groups. -/
def configured (broker : Endpoint) (groups : List (List String)) : Consumer :=
  groups.foldl subscribeTo (ofCommands broker [])

theorem configured_eq (broker : Endpoint) (groups : List (List String)) :
    configured broker groups = ofCommands broker groups.flatten := by
  have joined : ∀ commands, groups.foldl subscribeTo (ofCommands broker commands) =
      ofCommands broker (commands ++ groups.flatten) := by
    induction groups with
    | nil => intro commands; simp
    | cons group groups ih =>
      intro commands
      rw [List.foldl_cons, List.flatten_cons, ← List.append_assoc]
      exact ih (commands ++ group)
  exact joined []

/-- A course of the events `inputs`, from the connections `w`. -/
structure Course.Lawful (s : Course ω) (c : Carrier ω) (w : ω) (broker : Endpoint) (commands : List String)
    (inputs : List (Event × Handler)) : Prop where
  input : s.turns.map (·.input) = inputs
  due : ∀ past t future, s.turns = past ++ t :: future →
    Due t.handler commands (past.map (·.event)) t.event t.given t.attempts
  registered : ∀ past t future, s.turns = past ++ t :: future →
    t.registered = acknowledged ((past ++ [t]).map (·.event))
  addressed : ∀ t ∈ s.turns, ∀ sending ∈ t.sent, sending.endpoint = broker
  sends : c.Sends w (s.turns.flatMap (·.sent)) s.world
  consumer : s.consumer = ⟨broker, commands, acknowledged (inputs.map (·.1))⟩

section
variable {c : Carrier ω} {w : ω} {broker : Endpoint} {commands : List String} {inputs : List (Event × Handler)}
  {s : Course ω}

theorem Course.Lawful.events (h : s.Lawful c w broker commands inputs) :
    s.turns.map (·.event) = inputs.map (·.1) := by
  rw [← h.input, List.map_map]
  rfl

theorem Course.Lawful.next (h : s.Lawful c w broker commands inputs) (input : Event × Handler) :
    (s.next c input).Lawful c w broker commands (inputs ++ [input]) ∧
      ((s.next c input).consumer, (s.next c input).world) =
        (s.consumer.handleEvent c input.2 input.1 s.world).2 := by
  obtain ⟨event, handler⟩ := input
  obtain ⟨sent, given, k', w', hs, he, hrec, hb, hr⟩ := handleEvent_reacts c handler s.consumer event s.world
  have hk : s.consumer.registered = acknowledged (s.turns.map (·.event)) := by rw [h.consumer, h.events]
  have hn : s.next c (event, handler) = ⟨s.turns ++ [⟨event, handler, given, sent, k'.registered⟩], k', w'⟩ := by
    unfold Course.next
    rw [hrec]
    rfl
  have hd := hr.due hk
  have hreg := hr.registered_eq hk
  obtain ⟨hbroker, hcommands⟩ := hr.configuration
  rw [h.consumer] at hb hd hbroker hcommands
  rw [hn, he]
  refine ⟨?_, rfl⟩
  constructor
  case input =>
    rw [List.map_append, h.input]
    rfl
  case due =>
    intro past t future hsplit
    rcases snoc_split hsplit with ⟨rfl, rfl⟩ | ⟨future', -, hsplit⟩
    · exact hd
    · exact h.due past t future' hsplit
  case registered =>
    intro past t future hsplit
    rcases snoc_split hsplit with ⟨rfl, rfl⟩ | ⟨future', -, hsplit⟩
    · rw [List.map_append]
      exact hreg
    · exact h.registered past t future' hsplit
  case addressed =>
    intro t ht
    rcases List.mem_append.mp ht with ht | ht
    · exact h.addressed t ht
    · rw [List.mem_singleton.mp ht]
      exact hb
  case sends =>
    rw [List.flatMap_append, List.flatMap_singleton]
    exact h.sends.append hs
  case consumer =>
    rw [List.map_append, ← h.events]
    obtain ⟨broker', commands', registered'⟩ := k'
    obtain rfl : broker' = broker := hbroker
    obtain rfl : commands' = commands := hcommands
    exact congrArg _ hreg

end

theorem feed_lawful (c : Carrier ω) (w : ω) (broker : Endpoint) (commands : List String)
    (inputs : List (Event × Handler)) :
    ((ofCommands broker commands).feed c w inputs).Lawful c w broker commands inputs ∧
      (((ofCommands broker commands).feed c w inputs).consumer, ((ofCommands broker commands).feed c w inputs).world) =
        (ofCommands broker commands).heed c w inputs := by
  induction inputs using List.reverseRecOn with
  | nil =>
    refine ⟨⟨rfl, ?_, ?_, ?_, .nil w, rfl⟩, rfl⟩
    · intro past t future hs
      exact absurd hs (by simp [feed])
    · intro past t future hs
      exact absurd hs (by simp [feed])
    · intro t ht
      cases ht
  | append_singleton inputs input ih =>
    obtain ⟨hl, hh⟩ := ih
    obtain ⟨hl', hh'⟩ := hl.next input
    unfold feed at hl' hh'
    unfold feed heed at hh ⊢
    rw [List.foldl_concat, List.foldl_concat, ← hh]
    exact ⟨hl', hh'⟩

/-- The turn at a place hangs on the events before it. -/
theorem Course.Lawful.of_getElem? {s : Course ω} {c : Carrier ω} {w : ω} {broker : Endpoint}
    {commands : List String} {inputs : List (Event × Handler)} (h : s.Lawful c w broker commands inputs)
    {i : Nat} {t : Turn} (ht : s.turns[i]? = some t) : (inputs.map (·.1))[i]? = some t.event ∧
      Due t.handler commands ((inputs.map (·.1)).take i) t.event t.given t.attempts ∧
      t.registered = acknowledged ((inputs.map (·.1)).take (i + 1)) := by
  obtain ⟨hi, rfl⟩ := List.getElem?_eq_some_iff.mp ht
  have hsplit : s.turns = s.turns.take i ++ s.turns[i] :: s.turns.drop (i + 1) := by
    rw [List.getElem_cons_drop, List.take_append_drop]
  have hd := h.due _ _ _ hsplit
  have hr := h.registered _ _ _ hsplit
  rw [List.map_take, h.events] at hd
  rw [← List.take_succ_eq_append_getElem, List.map_take, h.events] at hr
  refine ⟨?_, hd, hr⟩
  rw [← h.events, List.getElem?_map, ht]
  rfl

/-- **Periods.** Of two courses of the same events, over whatever connections, a turn with the same handler
is the same in both, however the sends and the handlers fared before. -/
theorem feed_follows_periods (c : Carrier ω) (w : ω) (broker : Endpoint) (groups : List (List String))
    (inputs : List (Event × Handler)) :
    let k := configured broker groups
    (k.feed c w inputs).Lawful c w broker groups.flatten inputs ∧
      ((k.feed c w inputs).consumer, (k.feed c w inputs).world) = k.heed c w inputs ∧
      ∀ {ω' : Type} (c' : Carrier ω') (w' : ω') (inputs' : List (Event × Handler)),
        inputs'.map (·.1) = inputs.map (·.1) → ∀ (i : Nat) (t t' : Turn), (k.feed c w inputs).turns[i]? = some t →
          (k.feed c' w' inputs').turns[i]? = some t' → t'.handler = t.handler →
          t'.given = t.given ∧ t'.attempts = t.attempts ∧ t'.registered = t.registered := by
  rw [configured_eq]
  obtain ⟨hl, hh⟩ := feed_lawful c w broker groups.flatten inputs
  refine ⟨hl, hh, fun c' w' inputs' he i t t' ht ht' hhandler => ?_⟩
  obtain ⟨hevent, hdue, hreg⟩ := hl.of_getElem? ht
  obtain ⟨hevent', hdue', hreg'⟩ := (feed_lawful c' w' broker groups.flatten inputs').1.of_getElem? ht'
  rw [he] at hevent' hdue' hreg'
  rw [hhandler, Option.some.inj (hevent'.symm.trans hevent)] at hdue'
  obtain ⟨hgiven, hattempts⟩ := hdue'.unique hdue
  exact ⟨hgiven, hattempts, hreg'.trans hreg.symm⟩

/-- The subscriptions are refused, or the request before them fails; the token that comes again is a request
all the same. -/
theorem feed_follows_periods_refused : ∃ (c c' : Carrier Unit) (handler : Handler) (t t' : Turn),
    let fails : Handler := fun _ => none
    let rest : List (Event × Handler) :=
      [(.received 2 helloAck, handler), (.received 3 helloAck, handler), (.disconnected, handler)]
    let k := configured ⟨"broker", 0, .near⟩ [["a"], ["b", "c"]]
    (k.feed c () ((.received 1 [7], handler) :: rest)).turns[2]? = some t ∧
      (k.feed c' () ((.received 1 [7], fails) :: rest)).turns[2]? = some t' ∧
      t.given = some ⟨3, helloAck⟩ ∧ t.attempts = [Packet.encode ⟨3, [1]⟩] ∧ t.registered = true ∧
      t'.given = t.given ∧ t'.attempts = t.attempts ∧ t'.registered = t.registered := by
  let c : Carrier Unit := ⟨fun w _ _ => (.error (.sendFailure "closed"), w)⟩
  let c' : Carrier Unit := ⟨fun w _ _ => (.ok 7, w)⟩
  let handler : Handler := fun _ => some [1]
  obtain ⟨-, -, h⟩ := feed_follows_periods c () ⟨"broker", 0, .near⟩ [["a"], ["b", "c"]]
    [(.received 1 [7], handler), (.received 2 helloAck, handler), (.received 3 helloAck, handler),
      (.disconnected, handler)]
  exact ⟨c, c', handler, _, _, rfl, rfl, rfl, rfl, rfl, h c' () _ rfl 2 _ _ rfl rfl rfl⟩

end

end Consumer

end Switchboard
