import Switchboard.Proofs.Client.Requests

/-!
# After the report of the end

On a WebSocket link the reader reports the end and nobody tells the sender. The near side goes on accepting
what it is given until its own endpoint is closed or its sender takes up a frame and finds the connection
down (`Run.accepts_until_stranded`): a request that is accepted by a producer whose task has finished is
tracked, and nothing is ever said of it.
-/

namespace Switchboard

/-- A datagram never brings a close frame along. -/
theorem WebSide.send_keeps (s : WebSide) (data : Bytes) : (s.send data).2.closed = s.closed ∧
    ((s.send data).2.outbox = none ↔ s.outbox = none) ∧
    ∀ fs, (s.send data).2.outbox = some fs → .close ∈ fs → ∃ fs', s.outbox = some fs' ∧ .close ∈ fs' := by
  unfold send
  by_cases hc : s.closed = true
  · rw [if_pos hc]
    exact ⟨rfl, Iff.rfl, fun fs hfs hm => ⟨fs, hfs, hm⟩⟩
  · rw [if_neg hc]
    cases ho : s.outbox with
    | none => simp
    | some fs => simp

theorem WebSide.arrived_send (s : WebSide) (data : Bytes) : (s.send data).2.arrived = s.arrived := by
  unfold send
  split
  · rfl
  · dsimp only
    split <;> rfl

namespace WebLink

/-- What a motion does to the sender of the near side. -/
inductive Moved (l l' : WebLink) : Connection.Motion → Prop
  | closed (hc : l'.near.closed = true)
      (ho : l'.near.outbox = if l.near.closed then l.near.outbox else l.near.outbox.map (· ++ [.close])) :
      Moved l l' (.close .near)
  | stranded {f : Frame} {rest : List Frame} (hs : l.severed = true) (hf : l.near.outbox = some (f :: rest))
      (hc : l'.near.closed = l.near.closed) (ho : l'.near.outbox = none) : Moved l l' (.pass .near)
  | passed {f : Frame} {rest : List Frame} (hs : l.severed = false) (hf : l.near.outbox = some (f :: rest))
      (hc : l'.near.closed = l.near.closed) (ho : l'.near.outbox = if f = .close then none else some rest) :
      Moved l l' (.pass .near)
  | idle (hf : l.near.outbox = none ∨ l.near.outbox = some []) (hl : l' = l) : Moved l l' (.pass .near)
  | kept {m : Connection.Motion} (hm : m ≠ .close .near) (hp : m ≠ .pass .near)
      (hc : l'.near.closed = l.near.closed) (ho : l'.near.outbox = l.near.outbox) : Moved l l' m

theorem take_near (l : WebLink) : (l.take .near).2.near.closed = l.near.closed ∧
    (l.take .near).2.near.outbox = l.near.outbox := by
  unfold take
  split <;> exact ⟨rfl, rfl⟩

theorem read?_severed (l : WebLink) (hs : l.severed = true) {s : Side} {l' : WebLink} (h : l.read? s = some l') :
    l'.severed = true ∧ l'.far.arrived <:+ l.far.arrived := by
  have rest_suffix : ∀ {f rest}, l.far.arrived = f :: rest → rest <:+ l.far.arrived := by
    intro f rest ha
    rw [ha]
    exact List.suffix_cons f rest
  unfold read? at h
  dsimp only at h
  split at h
  · cases h
  · split at h
    · next rest ha =>
      cases h
      cases s with
      | near => exact ⟨rfl, List.suffix_refl _⟩
      | far => exact ⟨rfl, rest_suffix ha⟩
    · next f rest hf ha =>
      cases h
      cases s with
      | near => exact ⟨hs, List.suffix_refl _⟩
      | far => cases f.event? <;> exact ⟨hs, rest_suffix ha⟩
    · cases h
      cases s <;> exact ⟨hs, List.suffix_refl _⟩

end WebLink

namespace Connection

theorem move_web (l : WebLink) (m : Motion) : ∃ l', (web l).move m = web l' ∧ l.Moved l' m := by
  cases m with
  | close s =>
    cases s with
    | near =>
      refine ⟨l.close .near, rfl, .closed ?_ ?_⟩
      all_goals cases hc : l.near.closed <;> simp [WebLink.close, WebSide.close, WebLink.side, WebLink.setSide, hc]
    | far => exact ⟨l.close .far, rfl, .kept (by simp) (by simp) rfl rfl⟩
  | answer data => exact ⟨_, rfl, .kept (by simp) (by simp) rfl rfl⟩
  | take =>
    refine ⟨_, rfl, ?_⟩
    unfold WebLink.take
    split <;> exact .kept (by simp) (by simp) rfl rfl
  | drop => exact ⟨_, rfl, .kept (by simp) (by simp) rfl rfl⟩
  | pass s =>
    refine ⟨(l.passOn? s).getD l, rfl, ?_⟩
    unfold WebLink.passOn?
    cases s with
    | near =>
      simp only [WebLink.side, WebLink.setSide, WebLink.arrive, Side.other]
      split
      · next f rest hf =>
        split
        · next hs => exact .stranded hs hf rfl rfl
        · next hs => exact .passed (Bool.eq_false_iff.mpr hs) hf rfl rfl
      · next hn =>
        refine .idle ?_ rfl
        cases ho : l.near.outbox with
        | none => exact .inl rfl
        | some fs =>
          cases fs with
          | nil => exact .inr rfl
          | cons f rest => exact absurd ho (hn f rest)
    | far =>
      simp only [WebLink.side, WebLink.setSide, WebLink.arrive, Side.other]
      split
      · split <;> exact .kept (by simp) (by simp) rfl rfl
      · exact .kept (by simp) (by simp) rfl rfl
  | read s =>
    refine ⟨(l.read? s).getD l, rfl, ?_⟩
    cases hr : l.read? s with
    | none => exact .kept (by simp) (by simp) rfl rfl
    | some l' => exact .kept (by simp) (by simp) (side_read? hr .near).1 (side_read? hr .near).2
  | arrive f => exact ⟨_, rfl, .kept (by simp) (by simp) rfl rfl⟩
  | hangUp => exact ⟨_, rfl, .kept (by simp) (by simp) rfl rfl⟩
  | fail =>
    refine ⟨l.fail, rfl, ?_⟩
    unfold WebLink.fail
    split <;> exact .kept (by simp) (by simp) rfl rfl

theorem move_severed (l : WebLink) (m : Motion) (hs : l.severed = true) :
    ∃ l', (web l).move m = web l' ∧ l'.severed = true ∧ l'.far.arrived <:+ l.far.arrived := by
  have same : l.severed = true ∧ l.far.arrived <:+ l.far.arrived := ⟨hs, List.suffix_refl _⟩
  cases m with
  | close s =>
    refine ⟨l.close s, rfl, ?_⟩
    cases s with
    | near => exact same
    | far =>
      cases hc : l.far.closed <;> simp [WebLink.close, WebSide.close, WebLink.side, WebLink.setSide, hc, hs]
  | answer data =>
    have ha : (l.send .far data).2.far.arrived = l.far.arrived := l.far.arrived_send data
    exact ⟨_, rfl, hs, ha ▸ List.suffix_refl _⟩
  | take =>
    refine ⟨_, rfl, ?_⟩
    unfold WebLink.take
    split <;> exact same
  | drop => exact ⟨_, rfl, same⟩
  | pass s =>
    refine ⟨(l.passOn? s).getD l, rfl, ?_⟩
    unfold WebLink.passOn?
    split
    · rw [if_pos hs]
      cases s <;> exact same
    · exact same
  | read s =>
    refine ⟨(l.read? s).getD l, rfl, ?_⟩
    cases hr : l.read? s with
    | none => exact same
    | some l' => exact l.read?_severed hs hr
  | arrive f => exact ⟨_, rfl, same⟩
  | hangUp => exact ⟨_, rfl, rfl, List.suffix_refl _⟩
  | fail =>
    refine ⟨l.fail, rfl, ?_⟩
    unfold WebLink.fail
    split <;> exact same

end Connection

namespace Client

variable {κ : Type}

/-- The endpoint of the near side is closed. -/
def Turn.Closes (t : Turn κ) : Prop := t.act = .elsewhere (.close .near)

/-- The sender of the near side takes up a frame and finds that the connection is down. -/
def Turn.Strands (t : Turn κ) : Prop := t.act = .elsewhere (.pass .near) ∧ ∃ l f rest,
  t.before.connection = .web l ∧ l.severed = true ∧ l.near.outbox = some (f :: rest)

/-- What every run on a WebSocket link keeps. -/
structure Dialed (c : Client κ) (l : WebLink) (turns : List (Turn κ)) : Prop where
  connection : c.connection = .web l
  side : c.producer.broker.side = .near
  closed : l.near.closed = true ↔ ∃ t ∈ turns, t.Closes
  ended : l.near.outbox = none → l.near.closed = true ∨ ∃ t ∈ turns, t.Strands
  stranded : (∃ t ∈ turns, t.Strands) → l.near.outbox = none
  /-- A close frame comes from closing the endpoint. -/
  frames : ∀ fs, l.near.outbox = some fs → .close ∈ fs → l.near.closed = true

section
variable {near far : Address} {options : ProducerOptions} {now : Nat} {turns : List (Turn κ)} {t : Turn κ}
  {c c' : Client κ} {l : WebLink}

theorem dialed_fresh :
    (fresh (.web (.connect near far)) far options now : Client κ).Dialed (.connect near far) [] := by
  refine ⟨rfl, rfl, ?_, fun h => (by cases h), ?_, ?_⟩
  · simp [WebLink.connect, WebSide.fresh]
  · simp
  · rintro fs h hm
    cases h
    cases hm

theorem exists_mem_snoc {p : Turn κ → Prop} : (∃ t' ∈ turns ++ [t], p t') ↔ (∃ t' ∈ turns, p t') ∨ p t := by
  simp [or_and_right, exists_or]

/-- A turn that neither closes the endpoint nor moves the sender. -/
theorem Dialed.snoc {l' : WebLink} (h : t.before.Dialed l turns) (hc : t.after.connection = .web l')
    (hb : t.after.producer.broker = t.before.producer.broker) (ht : ¬ t.Closes) (hs : ¬ t.Strands)
    (hcl : l'.near.closed = l.near.closed) (hn : l'.near.outbox = none ↔ l.near.outbox = none)
    (hf : ∀ fs, l'.near.outbox = some fs → .close ∈ fs → l'.near.closed = true) :
    t.after.Dialed l' (turns ++ [t]) := by
  refine ⟨hc, hb ▸ h.side, ?_, fun ho => ?_, fun hx => ?_, hf⟩
  · rw [hcl, exists_mem_snoc, or_iff_left ht]
    exact h.closed
  · rw [hcl, exists_mem_snoc, or_iff_left hs]
    exact h.ended (hn.mp ho)
  · rw [exists_mem_snoc, or_iff_left hs] at hx
    exact hn.mpr (h.stranded hx)

/-- A motion closes the endpoint, strands the sender, passes a frame on, or leaves the sender alone. -/
theorem Dialed.moved {m : Connection.Motion} {l' : WebLink} (h : t.before.Dialed l turns)
    (ha : t.act = .elsewhere m) (hw : t.after.connection = .web l')
    (hb : t.after.producer.broker = t.before.producer.broker) (hm : l.Moved l' m) :
    t.after.Dialed l' (turns ++ [t]) := by
  have hc := h.connection
  cases hm with
  | closed hcl ho =>
    have hx : t.Closes := ha
    have hn : ¬ t.Strands := fun hs => nomatch ha.symm.trans hs.1
    refine ⟨hw, hb ▸ h.side, ?_, fun _ => .inl hcl, fun hx => ?_, fun _ _ _ => hcl⟩
    · rw [exists_mem_snoc]
      exact iff_of_true hcl (.inr hx)
    · rw [exists_mem_snoc, or_iff_left hn] at hx
      rw [ho, h.stranded hx]
      exact ite_self _
  | @stranded f rest hs hf hcl ho =>
    have hx : t.Strands := ⟨ha, l, f, rest, hc, hs, hf⟩
    have hn : ¬ t.Closes := fun hx => nomatch ha.symm.trans hx
    refine ⟨hw, hb ▸ h.side, ?_, fun _ => .inr ?_, fun _ => ho, fun fs hfs => ?_⟩
    · rw [hcl, exists_mem_snoc, or_iff_left hn]
      exact h.closed
    · exact exists_mem_snoc.mpr (.inr hx)
    · rw [ho] at hfs; cases hfs
  | @passed f rest hs hf hcl ho =>
    have hn : ¬ t.Strands := by
      rintro ⟨-, l', f', rest', hc', hs', -⟩
      obtain rfl := Connection.web.inj (hc.symm.trans hc')
      rw [hs] at hs'; cases hs'
    have hn' : ¬ t.Closes := fun hx => nomatch ha.symm.trans hx
    refine ⟨hw, hb ▸ h.side, ?_, fun hno => .inl ?_, fun hx => ?_, fun fs hfs hm => ?_⟩
    · rw [hcl, exists_mem_snoc, or_iff_left hn']
      exact h.closed
    · -- the sender has ended with a close frame
      rw [ho] at hno
      split at hno
      · next hfc => exact hcl.trans (h.frames _ hf (by rw [hfc]; exact List.mem_cons_self))
      · cases hno
    · rw [exists_mem_snoc, or_iff_left hn] at hx
      rw [h.stranded hx] at hf
      cases hf
    · rw [ho] at hfs
      split at hfs
      · cases hfs
      · cases hfs
        exact hcl.trans (h.frames _ hf (List.mem_cons_of_mem f hm))
  | idle hf he =>
    subst he
    have hn : ¬ t.Strands := by
      rintro ⟨-, l', f', rest', hc', -, hf'⟩
      obtain rfl := Connection.web.inj (hc.symm.trans hc')
      rcases hf with hf | hf <;> rw [hf] at hf' <;> cases hf'
    exact h.snoc hw hb (fun hx => nomatch ha.symm.trans hx) hn rfl Iff.rfl h.frames
  | kept hm hp hcl ho =>
    exact h.snoc hw hb (fun hx => hm (Act.elsewhere.inj (ha.symm.trans hx)))
      (fun hs => hp (Act.elsewhere.inj (ha.symm.trans hs.1))) hcl (by rw [ho])
      fun fs hfs hc' => hcl.trans (h.frames fs (ho ▸ hfs) hc')

theorem Turn.Occurs.dialed (ht : t.Occurs) (h : t.before.Dialed l turns) :
    ∃ l', t.after.Dialed l' (turns ++ [t]) := by
  have hc := h.connection
  cases ht.wires with
  | sent data ha hr hw =>
    rw [hc, h.side] at hw
    obtain ⟨hcl, ho, hf⟩ := l.near.send_keeps data
    refine ⟨_, h.snoc hw ht.broker (ha _) (fun hs => ha _ hs.1) hcl ho fun fs hfs hm => ?_⟩
    obtain ⟨fs', hfs', hm'⟩ := hf fs hfs hm
    exact hcl.trans (h.frames fs' hfs' hm')
  | took ha hr hw =>
    rw [hc] at hw
    obtain ⟨hcl, ho⟩ := l.take_near
    refine ⟨_, h.snoc (Prod.mk.inj hw).2.symm ht.broker (fun hx => nomatch ha.symm.trans hx)
      (fun hs => nomatch ha.symm.trans hs.1) hcl (by rw [ho]) fun fs hfs hm => ?_⟩
    exact hcl.trans (h.frames fs (ho ▸ hfs) hm)
  | moved m ha hr hw =>
    rw [hc] at hw
    obtain ⟨l', hl, hm⟩ := Connection.move_web l m
    exact ⟨l', h.moved ha (hw.trans hl) ht.broker hm⟩
  | still ha hr hw =>
    exact ⟨l, h.snoc (hw.trans hc) ht.broker (ha _) (fun hs => ha _ hs.1) rfl Iff.rfl h.frames⟩

theorem Run.dialed (h : Run (fresh (.web (.connect near far)) far options now) turns c) : ∃ l, c.Dialed l turns :=
  h.induct (P := fun turns c => ∃ l, c.Dialed l turns) ⟨_, dialed_fresh⟩ fun _ _ _ ht ⟨_, h⟩ => ht.dialed h

/-- Once the connection is down, no more frames arrive at the far side. -/
theorem Turn.Wires.severed (ht : t.Wires) (hs : t.before.producer.broker.side = .near)
    (hc : t.before.connection = .web l) (hsv : l.severed = true) :
    ∃ l', t.after.connection = .web l' ∧ l'.severed = true ∧ l'.far.arrived <:+ l.far.arrived := by
  cases ht with
  | sent data ha hr hw =>
    rw [hc, hs] at hw
    exact ⟨_, hw, hsv, List.suffix_refl _⟩
  | took ha hr hw =>
    rw [hc] at hw
    refine ⟨_, (Prod.mk.inj hw).2.symm, ?_⟩
    unfold WebLink.take
    split <;> exact ⟨hsv, List.suffix_refl _⟩
  | moved m ha hr hw =>
    rw [hc] at hw
    obtain ⟨l', hl, hm⟩ := Connection.move_severed l m hsv
    exact ⟨l', hw.trans hl, hm⟩
  | still ha hr hw => exact ⟨l, hw.trans hc, hsv, List.suffix_refl _⟩

theorem Run.severed (h : Run c turns c') (hs : c.producer.broker.side = .near) (hc : c.connection = .web l)
    (hsv : l.severed = true) :
    ∃ l', c'.connection = .web l' ∧ l'.severed = true ∧ l'.far.arrived <:+ l.far.arrived := by
  refine h.induct (P := fun _ c' => ∃ l', c'.connection = .web l' ∧ l'.severed = true ∧
    l'.far.arrived <:+ l.far.arrived) ⟨l, hc, hsv, List.suffix_refl _⟩ fun turns t hr ht ih => ?_
  obtain ⟨l', hc', hsv', hl'⟩ := ih
  obtain ⟨l'', hc'', hsv'', hl''⟩ := ht.wires.severed (hr.broker ▸ hs) hc' hsv'
  exact ⟨l'', hc'', hsv'', hl''.trans hl'⟩

/-- **Sends after the end.** Over a WebSocket link the near side accepts what it is given until its endpoint
is closed or its sender has taken up a frame on a connection that is down; a report of the end makes no
difference. Of what it is given once the connection is down nothing arrives. A request that is accepted when
the task of the producer has finished waits until it is forgotten or replaced, and nobody is told anything. -/
theorem Run.accepts_until_stranded (h : Run (fresh (.web (.connect near far)) far options now) turns c) :
    (∀ data, (c.connection.send .near data).1.isOk = true ↔ ∀ t ∈ turns, ¬ t.Closes ∧ ¬ t.Strands) ∧
    (∀ past t future, turns = past ++ t :: future → ∀ l, t.before.connection = .web l → l.severed = true →
      ∃ l', c.connection = .web l' ∧ l'.far.arrived <:+ l.far.arrived) ∧
    ∀ past t future id r, turns = past ++ t :: future → t.before.stage = .finished → t.Accepts id r →
      (∀ t' ∈ future, t'.Silent) ∧
      (Untouched id future → c.tracker.pending.get? id = some r) := by
  refine ⟨fun data => ?_, fun past t future hs l hc hsv => ?_, fun past t future id r hs hf ha => ?_⟩
  · obtain ⟨l, hd⟩ := h.dialed
    rw [hd.connection, ← Bool.not_eq_false, Connection.isOk_send_iff (c := .web l) trivial .near data]
    constructor
    · intro hup t ht
      constructor
      · exact fun hx => hup (.inl (hd.closed.mpr ⟨t, ht, hx⟩))
      · exact fun hx => hup (.inr (hd.stranded ⟨t, ht, hx⟩))
    · rintro hall (hcl | ho)
      · obtain ⟨t, ht, hx⟩ := hd.closed.mp hcl
        exact (hall t ht).1 hx
      · rcases hd.ended ho with hcl | ⟨t, ht, hx⟩
        · obtain ⟨t, ht, hx⟩ := hd.closed.mp hcl
          exact (hall t ht).1 hx
        · exact (hall t ht).2 hx
  · subst hs
    obtain ⟨ht, hp, hr⟩ := h.of_split rfl
    obtain ⟨l₁, hc₁, hsv₁, hl₁⟩ := ht.wires.severed (hp.broker ▸ rfl) hc hsv
    obtain ⟨l₂, hc₂, -, hl₂⟩ := hr.severed (ht.broker.trans hp.broker ▸ rfl) hc₁ hsv₁
    exact ⟨l₂, hc₂, hl₂.trans hl₁⟩
  · subst hs
    obtain ⟨ht, -, hr⟩ := h.of_split rfl
    obtain ⟨-, hsilent, hpend⟩ := hr.finished (ht.finished hf).1
    exact ⟨hsilent, hpend id r (ht.waits ha)⟩

end

/-- The far side closes, the task takes the report of it and finishes, a request is accepted, and the sender
takes it up. -/
theorem accepts_until_stranded_late : ∃ (turns past future : List (Turn Unit)) (t : Turn Unit) (c : Client Unit)
    (r : PendingRequest (Waiter Unit)),
    Run (fresh (.web (.connect "client" "ws://broker")) "ws://broker" {} 0) turns c ∧
    turns = past ++ t :: future ∧ t.before.stage = .finished ∧ t.Accepts 1 r ∧
    c.tracker.pending.get? 1 = some r ∧ (∃ t ∈ turns, t.Strands) ∧
    (c.connection.send .near (toBytes "ping")).1.isOk = false := by
  have h0 : Run (fresh (.web (.connect "client" "ws://broker")) "ws://broker" {} 0 : Client Unit) [] _ := .start
  have h1 := ((h0.next (.elsewhere (.close .far))).next (.elsewhere (.pass .far))).next (.elsewhere (.read .near))
  have h2 := (h1.next .take).next .take
  have h := (h2.next (.request (toBytes "ping") none ())).next (.elsewhere (.pass .near))
  obtain ⟨-, -, hpend⟩ := h.accepts_until_stranded
  obtain ⟨-, hp⟩ := hpend _ _ [_] 1 _ (List.append_assoc _ [_] [_]) (by decide +kernel) ⟨by decide +kernel, rfl⟩
  refine ⟨_, _, [_], _, _, _, h, List.append_assoc _ [_] [_], by decide +kernel, ⟨by decide +kernel, rfl⟩, hp ?_,
    ⟨_, List.mem_append_right _ (List.mem_singleton_self _), rfl, _, _, _, rfl, rfl, rfl⟩, by decide +kernel⟩
  intro t' ht'
  rw [List.mem_singleton.mp ht']
  exact ⟨fun ha => (nomatch ha), fun r' ha => (nomatch ha.1)⟩

/-- After the task has taken the report of the end and finished, a request is accepted, and nothing is ever
said of it. -/
theorem accepts_after_report : ∃ (turns : List (Turn Unit)) (c : Client Unit) (r : PendingRequest (Waiter Unit)),
    Run (fresh (.web (.connect "client" "ws://broker")) "ws://broker" {} 0) turns c ∧
    (∃ t ∈ turns, t.act = .take ∧ (t.before.connection.take .near).1 = some .disconnected) ∧
    c.stage = .finished ∧ (c.turn (.request (toBytes "ping") none ())).Accepts 1 r ∧
    ∀ more c', Run (c.turn (.request (toBytes "ping") none ())).after more c' →
      (∀ t ∈ more, t.Silent) ∧
      (Untouched 1 more → c'.tracker.pending.get? 1 = some r) := by
  have h0 : Run (fresh (.web (.connect "client" "ws://broker")) "ws://broker" {} 0 : Client Unit) [] _ := .start
  have h1 := ((h0.next (.elsewhere (.close .far))).next (.elsewhere (.pass .far))).next (.elsewhere (.read .near))
  have h := (h1.next .take).next .take
  refine ⟨_, _, _, h, ⟨_, List.mem_append_right _ (List.mem_singleton_self _), rfl, by decide +kernel⟩,
    by decide +kernel, ⟨by decide +kernel, rfl⟩, fun more c' hr => ?_⟩
  obtain ⟨-, hsilent, hpend⟩ := hr.finished (by decide +kernel)
  exact ⟨hsilent, hpend 1 _ rfl⟩

end Client

end Switchboard
