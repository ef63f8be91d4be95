import Switchboard.Proofs.Attachment.Steps

/-!
# From connecting to serving

While the link is open, `Phase` describes what the two sides know and all that is on its way between them:
the hello, its acknowledgement, copies, and then what the consumer asks for, among its answers. Each step
other than a close keeps it or leads to the next phase.
-/

namespace Switchboard.Attachment

/-- Neither side knows of the other. -/
structure Unmet (s : Attachment) (a : Address) : Prop where
  registered : s.consumer.registered = false
  contains : s.broker.consumers.contains a = false
  later : s.later = []

/-- How far the two sides have come, and what is on its way between them. -/
inductive Phase (s : Attachment) (a : Address) (streams : Side → List Event) : Prop
  | connecting (hn : streams .near = [.connected]) (hf : streams .far = [.connected] ∨ streams .far = [])
      (hu : s.Unmet a)
  | greeting (id : UInt32) (hn : streams .near = [])
      (hf : streams .far = [.connected, .received id hello] ∨ streams .far = [.received id hello]) (hu : s.Unmet a)
  | greeted (id : UInt32) (copies : List Event) (hn : streams .near = .received id helloAck :: copies)
      (hcopies : Copies copies) (hf : streams .far = []) (hr : s.consumer.registered = false) (hl : s.later = [])
      (hc : s.broker.consumers.contains a = true)
      (hs : ∀ command, s.broker.subscriptions.isSubscribed a command = false)
  /-- The broker has dealt with `done`, and `pending` is on its way. -/
  | serving (done pending : List Control) (hn : Copies (streams .near)) (hf : Asks (streams .far) pending)
      (hr : s.consumer.registered = true) (hl : s.consumer.commands.map .subscribe ++ s.later = done ++ pending)
      (hc : s.broker.consumers.contains a = true)
      (hs : s.broker.mode = .command →
        ∀ command, s.broker.subscriptions.isSubscribed a command = true ↔ command ∈ Control.wanted done)

/-- The link is open. -/
structure Attached (s : Attachment) (a : Address) (i : Nat) (streams : Side → List Event) : Prop where
  link : s.network.Links i s.sent false streams
  hosts : s.broker.Hosts a i
  reading : s.reading = true
  ended : s.ended = false
  phase : s.Phase a streams

section
variable {s : Attachment} {a : Address} {i : Nat} {streams : Side → List Event}

/-! ## What the broker does while the link is open -/

theorem read_reads (s : Attachment) (e : Endpoint) (id : UInt32) (data : Bytes) :
    ∃ sent r, Broker.Reads s.broker e id data sent r (s.read e (.received id data)).broker := by
  obtain ⟨r, -, hr⟩ := Broker.turn_reads Network.carrier s.network s.broker e id data
  rw [(Broker.turn_performs Network.carrier s.network s.broker (.event e (.received id data))).1] at hr
  exact ⟨_, r, hr⟩

theorem operate_mode (s : Attachment) (op : Broker.Operation) : (s.operate op).broker.mode = s.broker.mode := by
  have hm := (Broker.turn_occurs Network.carrier s.network s.broker op).settings.1
  rw [Broker.turn_before, (Broker.turn_performs Network.carrier s.network s.broker op).1] at hm
  exact hm

theorem Operated.attached {e : Endpoint} {event : Event} {arrived : List Event}
    (h : s.Operated a i (.event e event) streams arrived) (hn : event ≠ .disconnected) (he : s.ended = false)
    (phase : ∀ streams', streams' .near = streams .near ++ arrived → streams' .far = streams .far →
      (s.read e event).Phase a streams') : ∃ streams', (s.read e event).Attached a i streams' := by
  obtain ⟨streams', hl, hnear, hfar⟩ := h.link
  exact ⟨streams', hl, h.hosts, by simp [read, hn], he, phase streams' hnear hfar⟩

section
variable (hl : s.network.Links i s.sent false streams) (hh : s.broker.Hosts a i) (he : s.ended = false)
include hl hh he

theorem attached_connected (hb : (wire (s.read ⟨a, i, .far⟩ .connected).sent i .far).length < 2 ^ 30)
    (phase : ∀ streams', streams' .near = streams .near → streams' .far = streams .far →
      (s.read ⟨a, i, .far⟩ .connected).Phase a streams') :
    ∃ streams', (s.read ⟨a, i, .far⟩ .connected).Attached a i streams' := by
  have hp : ∀ e, (s.broker.turn Network.carrier s.network (.event ⟨a, i, .far⟩ .connected)).endpoint? = some e →
      e.Parted a i := by
    intro e h
    cases h
    exact .inl rfl
  obtain ⟨arrived, ho⟩ := operated hl hh hp (fun m hm => by cases hm) hb
  obtain rfl := ho.nothing hh hp (fun id r h => by cases h) (.inr fun p h => by cases h)
  refine ho.attached (by simp) he fun streams' hnear hfar => phase streams' ?_ hfar
  rw [hnear, List.append_nil]

omit he in
theorem operated_received {id : UInt32} {data : Bytes}
    (hd : data = hello ∨ s.broker.consumers.contains a = true)
    (hb : (wire (s.read ⟨a, i, .far⟩ (.received id data)).sent i .far).length < 2 ^ 30) :
    ∃ arrived, s.Operated a i (.event ⟨a, i, .far⟩ (.received id data)) streams arrived ∧
      (data ≠ hello → arrived = []) := by
  obtain ⟨r, hout, hr⟩ := Broker.turn_reads Network.carrier s.network s.broker ⟨a, i, .far⟩ id data
  have hp : ∀ e, (s.broker.turn Network.carrier s.network
      (.event ⟨a, i, .far⟩ (.received id data))).endpoint? = some e → e.Parted a i := by
    intro e h
    rw [Broker.Turn.endpoint?, hout] at h
    cases h
    exact .inl rfl
  obtain ⟨arrived, ho⟩ := operated hl hh hp (fun m hm => by rw [hr.enqueued?_eq_none hd hout] at hm; cases hm) hb
  refine ⟨arrived, ho, fun hn => ho.nothing hh hp ?_ (.inr ?_)⟩
  · intro id' r' h
    rw [hout] at h
    cases h
    exact hn rfl
  · intro p h
    rw [hout] at h
    cases h

theorem attached_hello {id : UInt32}
    (hb : (wire (s.read ⟨a, i, .far⟩ (.received id hello)).sent i .far).length < 2 ^ 30)
    (hn : streams .near = []) (hf : streams .far = []) (hu : s.Unmet a) :
    ∃ streams', (s.read ⟨a, i, .far⟩ (.received id hello)).Attached a i streams' := by
  obtain ⟨arrived, ho, -⟩ := operated_received hl hh (.inl rfl) hb
  obtain ⟨r, -, hr⟩ := Broker.turn_reads Network.carrier s.network s.broker ⟨a, i, .far⟩ id hello
  obtain ⟨⟨result, hsent⟩, -, -⟩ := hr.hello hu.contains
  obtain ⟨sent, r', hr'⟩ := read_reads s ⟨a, i, .far⟩ id hello
  obtain ⟨-, hc, hsub⟩ := hr'.hello hu.contains
  -- the acknowledgement is all that arrives
  obtain ⟨id', rfl⟩ : ∃ id', arrived = [.received id' helloAck] := by
    have hall : ∀ x ∈ (s.broker.turn Network.carrier s.network (.event ⟨a, i, .far⟩ (.received id hello))).sent,
        x.endpoint = ⟨a, i, .far⟩ ∧ x.result.isOk = true := by
      intro x hx
      have hxs : x = ⟨⟨a, i, .far⟩, helloAck, result⟩ := by
        rw [hsent] at hx
        exact List.mem_singleton.mp hx
      exact ⟨by rw [hxs], ho.ok x hx (by rw [hxs])⟩
    have harr := arrivals_of_ok hall
    rw [← ho.eq, hsent] at harr
    cases harr with
    | cons hx hrest =>
      cases hrest
      obtain ⟨id', rfl⟩ := hx
      exact ⟨id', rfl⟩
  refine ho.attached (by simp) he fun streams' hnear hfar => ?_
  rw [hn, List.nil_append] at hnear
  refine .greeted id' [] hnear (fun event h => by cases h) (by rw [hfar, hf]) hu.registered hu.later hc ?_
  intro command
  rw [hsub]
  apply Bool.eq_false_iff.mpr
  intro hs
  have hreg := hh.tidy.registered a command hs
  rw [hu.contains] at hreg
  cases hreg

/-- What a registered consumer sends has no reply on the link. -/
theorem attached_received {id : UInt32} {data : Bytes} (hc : s.broker.consumers.contains a = true)
    (hd : data ≠ hello) (hb : (wire (s.read ⟨a, i, .far⟩ (.received id data)).sent i .far).length < 2 ^ 30)
    (phase : (s.read ⟨a, i, .far⟩ (.received id data)).broker.consumers.contains a = true →
      ∀ streams', streams' .near = streams .near → streams' .far = streams .far →
        (s.read ⟨a, i, .far⟩ (.received id data)).Phase a streams') :
    ∃ streams', (s.read ⟨a, i, .far⟩ (.received id data)).Attached a i streams' := by
  obtain ⟨arrived, ho, harr⟩ := operated_received hl hh (.inr hc) hb
  obtain rfl := harr hd
  obtain ⟨sent, r, hr⟩ := read_reads s ⟨a, i, .far⟩ id data
  have hc' : (s.read ⟨a, i, .far⟩ (.received id data)).broker.consumers.contains a = true := by
    rcases hr.consumers with ⟨-, hn, -⟩ | ⟨-, hcons⟩
    · rw [hc] at hn
      cases hn
    · rw [hcons]
      exact hc
  refine ho.attached (by simp) he fun streams' hnear hfar => phase hc' streams' ?_ hfar
  rw [hnear, List.append_nil]

end

theorem Phase.read (h : s.Phase a streams) {streams₁ : Side → List Event} {event : Event}
    (hl : s.network.Links i s.sent false streams₁) (hnear₁ : streams₁ .near = streams .near)
    (hfar₁ : streams .far = event :: streams₁ .far) (hh : s.broker.Hosts a i) (he : s.ended = false)
    (hb : (wire (s.read ⟨a, i, .far⟩ event).sent i .far).length < 2 ^ 30) :
    ∃ streams', (s.read ⟨a, i, .far⟩ event).Attached a i streams' := by
  cases h with
  | connecting hn hf hu =>
    rw [hfar₁] at hf
    rcases hf with hf | hf
    · obtain ⟨rfl, hrest⟩ := List.cons.inj hf
      refine attached_connected hl hh he hb fun streams' hnear hfar => ?_
      exact .connecting (hnear.trans (hnear₁.trans hn)) (.inr (hfar.trans hrest))
        ⟨hu.registered, hu.contains, hu.later⟩
    · cases hf
  | greeting id hn hf hu =>
    rw [hfar₁] at hf
    rcases hf with hf | hf
    · obtain ⟨rfl, hrest⟩ := List.cons.inj hf
      refine attached_connected hl hh he hb fun streams' hnear hfar => ?_
      exact .greeting id (hnear.trans (hnear₁.trans hn)) (.inr (hfar.trans hrest))
        ⟨hu.registered, hu.contains, hu.later⟩
    · obtain ⟨rfl, hrest⟩ := List.cons.inj hf
      exact attached_hello hl hh he hb (hnear₁.trans hn) hrest hu
  | greeted id copies hn hcopies hf =>
    -- the consumer sends nothing before it has the acknowledgement
    rw [hf] at hfar₁
    cases hfar₁
  | serving done pending hn hf hr hl' hc hsub =>
    rw [← hnear₁] at hn
    rw [hfar₁] at hf
    have hrec : ∀ n o, s.broker.answers.get? ⟨a, n⟩ = some o → n.toNat < 2 ^ 30 :=
      fun n o ho => (hh.records _ _ ho).2 rfl
    -- a control message moves from `pending` to `done`; an answer leaves both as they are
    cases hf with
    | @control id m _ ms hf =>
      obtain ⟨sent, r, hread⟩ := read_reads s ⟨a, i, .far⟩ id m.toBytes
      refine attached_received hl hh he hc m.toBytes_ne_hello hb fun hc' streams' hnear hfar => ?_
      refine .serving (done ++ [m]) ms (by rw [hnear]; exact hn) (by rw [hfar]; exact hf) hr
        (by rw [List.append_assoc]; exact hl') hc' fun hm => ?_
      have hmode : s.broker.mode = .command := (operate_mode s _).symm.trans hm
      rw [Control.wanted_snoc]
      exact hread.asked hc hmode hh.distinct hrec (hsub hmode)
    | @answer id p hp _ _ hf =>
      have hne : p.encode ≠ hello := by
        intro he
        have hle := le_id_of_hello he
        omega
      obtain ⟨sent, r, hread⟩ := read_reads s ⟨a, i, .far⟩ id p.encode
      refine attached_received hl hh he hc hne hb fun hc' streams' hnear hfar => ?_
      refine .serving done pending (by rw [hnear]; exact hn) (by rw [hfar]; exact hf) hr hl' hc' fun hm => ?_
      have hmode : s.broker.mode = .command := (operate_mode s _).symm.trans hm
      rw [hread.answered hp]
      exact hsub hmode

theorem Phase.network (h : s.Phase a streams) (w' : Network) : { s with network := w' }.Phase a streams := by
  cases h with
  | connecting hn hf hu => exact .connecting hn hf ⟨hu.registered, hu.contains, hu.later⟩
  | greeting id hn hf hu => exact .greeting id hn hf ⟨hu.registered, hu.contains, hu.later⟩
  | greeted id copies hn hcopies hf hr hl hc hs => exact .greeted id copies hn hcopies hf hr hl hc hs
  | serving done pending hn hf hr hl hc hs => exact .serving done pending hn hf hr hl hc hs

theorem Attached.read (h : s.Attached a i streams) {event : Event} {w' : Network}
    (ht : s.network.take ⟨a, i, .far⟩ = (some event, w'))
    (hb : (wire ({ s with network := w' }.read ⟨a, i, .far⟩ event).sent i .far).length < 2 ^ 30) :
    ∃ streams', ({ s with network := w' }.read ⟨a, i, .far⟩ event).Attached a i streams' := by
  obtain ⟨rest, hs, hl⟩ := h.link.take (e := ⟨a, i, .far⟩) rfl ht
  exact (h.phase.network w').read hl rfl hs h.hosts h.ended hb

/-! ## What the consumer does while the link is open -/

theorem attached_deliver (hl : s.network.Links i s.sent false streams) (hh : s.broker.Hosts a i)
    (hr : s.reading = true) {name : Address} (hside : s.consumer.broker = ⟨name, i, .near⟩) {handler : Handler}
    {event : Event} (hn : event ≠ .disconnected) {given : Option Parcel} {k : Consumer} {ss : List Sending}
    {w' : Network} (hs : Network.carrier.Sends s.network ss w')
    (hk : s.consumer.handleEvent Network.carrier handler event s.network = (given, k, w'))
    (hrec : (s.consumer.handleEvent Network.carrier.recorded handler event (s.network, [])).2.2.2 = ss)
    (hb : ∀ x ∈ ss, x.endpoint = s.consumer.broker)
    (phase : ∀ streams' arrived, streams' .near = streams .near → streams' .far = streams .far ++ arrived →
      List.Forall₂ Sending.ArrivesAs ss arrived → (s.deliver handler event).Phase a streams') :
    ∃ streams', (s.deliver handler event).Attached a i streams' := by
  rw [hside] at hb
  obtain ⟨streams', arrived, hl', hnear, hfar, harr⟩ := hl.sends_near hs hb
  refine ⟨streams', ?_, hh, hr, by simp [deliver, hn], phase streams' arrived hnear hfar harr⟩
  simp only [deliver, hk, hrec]
  exact hl'

theorem Phase.deliver (h : s.Phase a streams) {streams₁ : Side → List Event} {event : Event}
    (hl : s.network.Links i s.sent false streams₁) (hfar₁ : streams₁ .far = streams .far)
    (hnear₁ : streams .near = event :: streams₁ .near) (hh : s.broker.Hosts a i) (hr : s.reading = true)
    {name : Address} (hside : s.consumer.broker = ⟨name, i, .near⟩) (handler : Handler) :
    ∃ streams', (s.deliver handler event).Attached a i streams' := by
  cases h with
  | connecting hn hf hu =>
    rw [hnear₁] at hn
    obtain ⟨rfl, hrest⟩ := List.cons.inj hn
    refine attached_deliver hl hh hr hside (by simp) (.single Network.carrier s.network s.consumer.broker hello)
      rfl rfl (fun x hx => by rw [List.mem_singleton.mp hx]) fun streams' arrived hnear hfar harr => ?_
    cases harr with
    | cons hx hnil =>
      cases hnil
      obtain ⟨id, rfl⟩ := hx
      refine .greeting id (hnear.trans hrest) ?_ ⟨hu.registered, hu.contains, hu.later⟩
      rw [hfar, hfar₁]
      rcases hf with hf | hf
      · exact .inl (by rw [hf]; rfl)
      · exact .inr (by rw [hf]; rfl)
  | greeting id hn =>
    rw [hn] at hnear₁
    cases hnear₁
  | greeted id copies hn hcopies hf hreg hlater hc hsub =>
    rw [hnear₁] at hn
    obtain ⟨rfl, hrest⟩ := List.cons.inj hn
    obtain ⟨ss, w', hs, he, hrec, hb, hd⟩ :=
      Consumer.subscribeAll_sends Network.carrier s.consumer s.consumer.commands s.network
    have hack := Consumer.handleEvent_ack Network.carrier handler hreg
    refine attached_deliver hl hh hr hside (by simp) hs (by rw [hack, he])
      (by rw [Consumer.handleEvent_ack Network.carrier.recorded handler hreg, hrec]; rfl) hb
      fun streams' arrived hnear hfar harr => ?_
    have hasks : Asks arrived (s.consumer.commands.map .subscribe) := by
      refine asks_of_controls harr ?_
      rw [List.map_map]
      exact hd
    have hk : (s.deliver handler (.received id helloAck)).consumer = { s.consumer with registered := true } :=
      congrArg (·.2.1) (hack id s.network)
    refine .serving [] (s.consumer.commands.map .subscribe) ?_ ?_ ?_ ?_ hc fun _ command => ?_
    · rw [hnear, hrest]
      exact hcopies
    · rw [hfar, hfar₁, hf]
      exact hasks
    · rw [hk]
    · rw [hk]
      show s.consumer.commands.map .subscribe ++ s.later = _
      rw [hlater, List.append_nil, List.nil_append]
    · show s.broker.subscriptions.isSubscribed a command = true ↔ _
      rw [hsub command]
      simp [Control.wanted]
  | serving done pending hn hf hreg hlater hc hsub =>
    rw [hnear₁] at hn
    obtain ⟨id, data, rfl, hid⟩ := hn event (List.mem_cons_self ..)
    obtain ⟨ss, w', hs, he, hrec, hb, hsaid⟩ :=
      Consumer.process_sends Network.carrier handler s.consumer ⟨id, data⟩ s.network
    have hproc := Consumer.handleEvent_registered Network.carrier handler hreg id data s.network
    refine attached_deliver hl hh hr hside (by simp) hs (by rw [hproc, he])
      (by rw [Consumer.handleEvent_registered Network.carrier.recorded handler hreg, hrec]; rfl)
      hb fun streams' arrived hnear hfar harr => ?_
    have hasks : Asks arrived [] := by
      refine asks_of_answers harr fun x hx => ?_
      obtain ⟨answer, -, -, hd⟩ := Consumer.mem_replies.mp (hsaid ▸ List.mem_map_of_mem hx)
      exact ⟨_, hid, hd⟩
    have hk : (s.deliver handler (.received id data)).consumer = s.consumer := congrArg (·.2.1) hproc
    refine .serving done pending ?_ ?_ (by rw [hk]; exact hreg) (by rw [hk]; exact hlater) hc hsub
    · rw [hnear]
      exact fun event he => hn event (List.mem_cons_of_mem _ he)
    · have hall := hf.append hasks
      rw [List.append_nil] at hall
      rw [hfar, hfar₁]
      exact hall

theorem Attached.deliver (h : s.Attached a i streams) {name : Address}
    (hside : s.consumer.broker = ⟨name, i, .near⟩) (handler : Handler) {event : Event} {w' : Network}
    (ht : s.network.take s.consumer.broker = (some event, w')) :
    ∃ streams', ({ s with network := w' }.deliver handler event).Attached a i streams' := by
  rw [hside] at ht
  obtain ⟨rest, hs, hl⟩ := h.link.take (e := ⟨name, i, .near⟩) rfl ht
  exact (h.phase.network w').deliver hl rfl hs h.hosts h.reading hside handler

theorem Attached.ask (h : s.Attached a i streams) {name : Address} (hside : s.consumer.broker = ⟨name, i, .near⟩)
    (m : Control) (hreg : s.consumer.registered = true) : ∃ streams', (s.ask m).Attached a i streams' := by
  have hs := Carrier.Sends.single Network.carrier s.network s.consumer.broker m.toBytes
  obtain ⟨streams', arrived, hl, hnear, hfar, harr⟩ :=
    h.link.sends_near hs fun x hx => by rw [List.mem_singleton.mp hx, hside]
  refine ⟨streams', hl, h.hosts, h.reading, h.ended, ?_⟩
  cases h.phase with
  | connecting hn hf hu | greeting id hn hf hu =>
    rw [hu.registered] at hreg
    cases hreg
  | greeted id copies hn hcopies hf hr =>
    rw [hr] at hreg
    cases hreg
  | serving done pending hn hf hr hlater hc hsub =>
    have hasks : Asks arrived [m] := asks_of_controls harr rfl
    refine .serving done (pending ++ [m]) ?_ ?_ hr ?_ hc hsub
    · rw [hnear]
      exact hn
    · rw [hfar]
      exact hf.append hasks
    · show s.consumer.commands.map .subscribe ++ (s.later ++ [m]) = _
      rw [← List.append_assoc, hlater, List.append_assoc]

/-! ## What others do -/

section
variable {op : Broker.Operation} (ho : op.Apart a i)
include ho

theorem operate_contains (hs : s.broker.Sound) :
    (s.operate op).broker.consumers.contains a = s.broker.consumers.contains a := by
  have hc := (Broker.turn_occurs Network.carrier s.network s.broker op).contains_of_avoids
    (by rw [Broker.turn_before]; exact hs) (ho.avoids Network.carrier s.network s.broker)
  rw [Broker.turn_before, (Broker.turn_performs Network.carrier s.network s.broker op).1] at hc
  exact hc

theorem operate_isSubscribed (hd : s.broker.subscriptions.Distinct) (command : String) :
    (s.operate op).broker.subscriptions.isSubscribed a command = s.broker.subscriptions.isSubscribed a command := by
  have hc := (Broker.turn_occurs Network.carrier s.network s.broker op).isSubscribed_of_avoids
    (by rw [Broker.turn_before]; exact hd) (ho.avoids Network.carrier s.network s.broker) command
  rw [Broker.turn_before, (Broker.turn_performs Network.carrier s.network s.broker op).1] at hc
  exact hc

theorem Attached.operate (h : s.Attached a i streams) (hb : (wire (s.operate op).sent i .far).length < 2 ^ 30) :
    ∃ streams', (s.operate op).Attached a i streams' := by
  have havoids := ho.avoids Network.carrier s.network s.broker
  have hp := ho.parted Network.carrier s.network s.broker
  obtain ⟨arrived, hop⟩ := operated h.link h.hosts hp (fun m hm => havoids.producer hm) hb
  have hsilent : s.broker.consumers.contains a = false → arrived = [] := by
    intro hc
    refine hop.nothing h.hosts hp (fun id r hout => ?_) (.inl hc)
    exact havoids.1 ⟨a, i, .far⟩ (by rw [Broker.Turn.endpoint?, hout]) rfl
  obtain ⟨streams', hl, hnear, hfar⟩ := hop.link
  have hc' := operate_contains ho h.hosts.sound
  have hsub' := operate_isSubscribed ho h.hosts.distinct
  refine ⟨streams', hl, hop.hosts, h.reading, h.ended, ?_⟩
  cases h.phase with
  | connecting hn hf hu =>
    rw [hsilent hu.contains, List.append_nil] at hnear
    exact .connecting (hnear.trans hn) (by rw [hfar]; exact hf) ⟨hu.registered, hc'.trans hu.contains, hu.later⟩
  | greeting id hn hf hu =>
    rw [hsilent hu.contains, List.append_nil] at hnear
    exact .greeting id (hnear.trans hn) (by rw [hfar]; exact hf) ⟨hu.registered, hc'.trans hu.contains, hu.later⟩
  | greeted id copies hn hcopies hf hr hlater hc hsub =>
    refine .greeted id (copies ++ arrived) (by rw [hnear, hn]; rfl) (hcopies.append hop.copies)
      (hfar.trans hf) hr hlater (hc'.trans hc) fun command => ?_
    rw [hsub' command]
    exact hsub command
  | serving done pending hn hf hr hlater hc hsub =>
    refine .serving done pending (by rw [hnear]; exact hn.append hop.copies) (by rw [hfar]; exact hf) hr hlater
      (hc'.trans hc) fun hm command => ?_
    rw [operate_mode] at hm
    rw [hsub' command]
    exact hsub hm command

end

theorem Attached.elsewhere (h : s.Attached a i streams) {w' : Network} (hw : w'.get? i = s.network.get? i) :
    { s with network := w' }.Attached a i streams :=
  ⟨h.link.elsewhere hw, h.hosts, h.reading, h.ended, h.phase.network w'⟩

end

end Switchboard.Attachment
