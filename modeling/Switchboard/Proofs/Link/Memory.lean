import Mathlib.Data.List.Induction
import Switchboard.Proofs.History
import Switchboard.Proofs.Link.Sides

/-!
# Memory links

Both sides call on a link in any order: they send, close, take and drop. What a side has taken and what
waits for it is `connected`, the datagrams that the other side's sends were accepted with, in their order,
and `disconnected` once if anybody has closed (`delivers_in_order`). What a send comes to is told by the
calls before it (`outcome`).
-/

namespace Switchboard

namespace MemoryLink

/-! ## Calls -/

inductive Call where
  | send (s : Side) (data : Bytes)
  | close (s : Side)
  | take (s : Side)
  | takeAll (s : Side)
  | drop (s : Side)

/-- A call, with what it came to. -/
inductive Turn where
  | sent (s : Side) (data : Bytes) (result : Except Failure UInt32)
  | closed (s : Side)
  | took (s : Side) (events : List Event)
  | dropped (s : Side)

def turn (l : MemoryLink) : Call → Turn × MemoryLink
  | .send s data =>
    let r := l.send s data
    (.sent s data r.1, r.2)
  | .close s => (.closed s, l.close)
  | .take s =>
    let r := l.take s
    (.took s r.1.toList, r.2)
  | .takeAll s =>
    let r := l.takeAll s
    (.took s (r.1.getD []), r.2)
  | .drop s => (.dropped s, l.drop s)

def play (l : MemoryLink) (calls : List Call) : List Turn × MemoryLink :=
  calls.foldl (fun h call => (h.1 ++ [(h.2.turn call).1], (h.2.turn call).2)) ([], l)

section
variable (turns : List Turn) (s : Side)

def Turn.accepted? : Turn → Option (UInt32 × Bytes)
  | .sent s' data (.ok id) => if s' = s then some (id, data) else none
  | _ => none

def Turn.received : Turn → List Event
  | .took s' events => if s' = s then events else []
  | _ => []

def Turn.closes : Turn → Bool
  | .closed _ => true
  | _ => false

def Turn.drops : Turn → Bool
  | .dropped s' => s' = s
  | _ => false

/-- The sends of a side that were accepted, with their ids. -/
def accepted : List (UInt32 × Bytes) := turns.filterMap (·.accepted? s)

/-- The events that a side has taken. -/
def received : List Event := turns.flatMap (·.received s)

def isClosed : Bool := turns.any (·.closes)

def isDropped : Bool := turns.any (·.drops s)

/-- What a send of a side comes to behind `turns`, when its peer has this name. -/
def outcome (name : Address) : Except Failure UInt32 :=
  if isClosed turns then .error (.sendFailure s!"link to {name} closed")
  else if isDropped turns s.other then .error (.sendFailure "channel closed")
  else .ok (UInt32.ofNat ((accepted turns s).length + 1))

variable (t : Turn)

theorem accepted_snoc : accepted (turns ++ [t]) s = accepted turns s ++ (t.accepted? s).toList := by
  simp [accepted, List.filterMap_append, List.filterMap_cons]
  cases t.accepted? s <;> rfl

theorem received_snoc : received (turns ++ [t]) s = received turns s ++ t.received s := by
  simp [received]

theorem isClosed_snoc : isClosed (turns ++ [t]) = (isClosed turns || t.closes) := by
  simp [isClosed]

theorem isClosed_snoc_of_imp (h : t.closes = true → isClosed turns = true) :
    isClosed (turns ++ [t]) = isClosed turns := by
  rw [isClosed_snoc]
  cases hx : t.closes with
  | true => rw [h hx]; rfl
  | false => exact Bool.or_false _

theorem isDropped_snoc : isDropped (turns ++ [t]) s = (isDropped turns s || t.drops s) := by
  simp [isDropped]

end

/-! ## What a call can do -/

inductive Acts (l : MemoryLink) : Turn → MemoryLink → Prop
  | late {s : Side} (data : Bytes) (hc : l.closed = true) :
      Acts l (.sent s data (.error (.sendFailure s!"link to {l.peer s} closed"))) l
  | abandoned {s : Side} (data : Bytes) (hc : l.closed = false) (hi : (l.side s.other).inbox = none) :
      Acts l (.sent s data (.error (.sendFailure "channel closed")))
        (l.setSide { l.side s with nextId := (l.side s).nextId + 1 } s)
  | accepted {s : Side} {waiting : List Event} (data : Bytes) (hc : l.closed = false)
      (hi : (l.side s.other).inbox = some waiting) :
      Acts l (.sent s data (.ok (l.side s).nextId))
        ((l.setSide { l.side s with nextId := (l.side s).nextId + 1 } s).setSide
          { l.side s.other with inbox := some (waiting ++ [.received (l.side s).nextId data]) } s.other)
  | closed {s : Side} (hc : l.closed = false) : Acts l (.closed s) l.close
  | closedAgain {s : Side} (hc : l.closed = true) : Acts l (.closed s) l
  | took {s : Side} {events rest : List Event} (hi : (l.side s).inbox = some (events ++ rest)) :
      Acts l (.took s events) (l.setSide { l.side s with inbox := some rest } s)
  | tookNothing {s : Side} : Acts l (.took s []) l
  | dropped {s : Side} : Acts l (.dropped s) (l.setSide { l.side s with inbox := none } s)

theorem turn_acts (l : MemoryLink) (call : Call) : l.Acts (l.turn call).1 (l.turn call).2 := by
  cases call with
  | send s data =>
    simp only [turn]
    cases hc : l.closed with
    | true =>
      rw [send_of_closed hc]
      exact .late data hc
    | false =>
      cases hi : (l.side s.other).inbox with
      | none =>
        rw [send_of_dropped hc hi]
        exact .abandoned data hc hi
      | some waiting =>
        rw [send_of_listening hc hi]
        exact .accepted data hc hi
  | close s =>
    cases hc : l.closed with
    | true =>
      rw [turn, close_of_closed hc]
      exact .closedAgain hc
    | false => exact .closed hc
  | take s =>
    simp only [turn, take]
    cases hi : (l.side s).inbox with
    | none => exact .tookNothing
    | some waiting =>
      cases waiting with
      | nil => exact .tookNothing
      | cons e rest => exact .took hi
  | takeAll s =>
    simp only [turn, takeAll]
    cases hi : (l.side s).inbox with
    | none => exact .tookNothing
    | some waiting =>
      have h : l.Acts (.took s waiting) (l.setSide { l.side s with inbox := some [] } s) :=
        .took (by rw [hi, List.append_nil])
      exact h
  | drop s => exact .dropped

/-! ## What comes to a side -/

/-- What came to side `s` through a link, when this is what happened on it. -/
structure Delivers (turns : List Turn) (l : MemoryLink) (s : Side) : Prop where
  stream : isDropped turns s = false → ∃ waiting, (l.side s).inbox = some waiting ∧
    received turns s ++ waiting = .connected :: (accepted turns s.other).map (fun d => .received d.1 d.2) ++
      if isClosed turns then [.disconnected] else []
  gone : isDropped turns s = true → (l.side s).inbox = none
  ids : (accepted turns s.other).map (·.1) =
    (List.range' 1 (accepted turns s.other).length).map UInt32.ofNat

section
variable {turns : List Turn} {t : Turn} {l l' : MemoryLink} {s : Side}

theorem Delivers.kept (h : Delivers turns l s) (hi : (l'.side s).inbox = (l.side s).inbox)
    (ha : t.accepted? s.other = none) (hr : t.received s = []) (hc : t.closes = true → isClosed turns = true)
    (hd : t.drops s = false) : Delivers (turns ++ [t]) l' s := by
  constructor
  case stream =>
    rw [isDropped_snoc, hd, Bool.or_false, received_snoc, hr, accepted_snoc, ha, isClosed_snoc_of_imp _ _ hc, hi]
    simpa using h.stream
  case gone =>
    rw [isDropped_snoc, hd, Bool.or_false, hi]
    exact h.gone
  case ids =>
    rw [accepted_snoc, ha]
    simpa using h.ids

theorem Delivers.listens (h : Delivers turns l s) {waiting : List Event} (hi : (l.side s).inbox = some waiting) :
    isDropped turns s = false := by
  refine Bool.eq_false_iff.mpr fun hd => ?_
  rw [h.gone hd] at hi
  cases hi

theorem Delivers.stream_eq (h : Delivers turns l s) {waiting : List Event} (hi : (l.side s).inbox = some waiting) :
    received turns s ++ waiting = .connected :: (accepted turns s.other).map (fun d => .received d.1 d.2) ++
      if isClosed turns then [.disconnected] else [] := by
  obtain ⟨waiting', hw, hs⟩ := h.stream (h.listens hi)
  obtain rfl := Option.some.inj (hw.symm.trans hi)
  exact hs

theorem Delivers.accept (h : Delivers turns l s.other) (hc : isClosed turns = false) {waiting : List Event}
    (hi : (l.side s.other).inbox = some waiting) {id : UInt32}
    (hid : id = UInt32.ofNat ((accepted turns s).length + 1)) {data : Bytes}
    (hi' : (l'.side s.other).inbox = some (waiting ++ [.received id data])) :
    Delivers (turns ++ [.sent s data (.ok id)]) l' s.other := by
  have hs := h.stream_eq hi
  have hids := h.ids
  rw [Side.other_other] at hs hids
  have ha : accepted (turns ++ [.sent s data (.ok id)]) s = accepted turns s ++ [(id, data)] := by
    rw [accepted_snoc]
    simp [Turn.accepted?]
  have hn : isDropped (turns ++ [.sent s data (.ok id)]) s.other = false := by
    rw [isDropped_snoc, h.listens hi]
    rfl
  constructor
  case stream =>
    intro _
    refine ⟨_, hi', ?_⟩
    rw [Side.other_other, ha, received_snoc, isClosed_snoc, hc, ← List.append_assoc]
    rw [hc] at hs
    simp only [Turn.received, List.append_nil, Turn.closes, Bool.or_self, Bool.false_eq_true, ite_false] at hs ⊢
    rw [hs, List.map_append]
    rfl
  case gone =>
    intro hd
    rw [hn] at hd
    cases hd
  case ids =>
    rw [Side.other_other, ha, List.map_append, hids, List.length_append, List.length_singleton,
      map_range'_snoc, hid]
    rfl

theorem Delivers.close (h : Delivers turns l s) (hc : isClosed turns = false) (closer : Side)
    (hi : (l'.side s).inbox = (l.side s).inbox.map (· ++ [.disconnected])) :
    Delivers (turns ++ [.closed closer]) l' s := by
  constructor
  case stream =>
    rw [isDropped_snoc, received_snoc, accepted_snoc, isClosed_snoc, hc, hi]
    intro hn
    obtain ⟨waiting, hw, hs⟩ := h.stream (by simpa [Turn.drops] using hn)
    rw [hc] at hs
    refine ⟨waiting ++ [.disconnected], by rw [hw]; rfl, ?_⟩
    simp only [Turn.received, Turn.accepted?, Turn.closes, List.append_nil, Bool.false_or, ite_true,
      Option.toList_none, Bool.false_eq_true, ite_false] at hs ⊢
    rw [← List.append_assoc, hs]
  case gone =>
    rw [isDropped_snoc, hi]
    intro hd
    rw [h.gone (by simpa [Turn.drops] using hd)]
    rfl
  case ids =>
    rw [accepted_snoc]
    simpa [Turn.accepted?] using h.ids

theorem Delivers.take (h : Delivers turns l s) {events rest : List Event}
    (hi : (l.side s).inbox = some (events ++ rest)) (hi' : (l'.side s).inbox = some rest) :
    Delivers (turns ++ [.took s events]) l' s := by
  have hn : isDropped (turns ++ [.took s events]) s = false := by
    rw [isDropped_snoc, h.listens hi]
    rfl
  constructor
  case stream =>
    intro _
    refine ⟨rest, hi', ?_⟩
    rw [received_snoc, accepted_snoc, isClosed_snoc]
    simpa [Turn.received, Turn.accepted?, Turn.closes] using h.stream_eq hi
  case gone =>
    intro hd
    rw [hn] at hd
    cases hd
  case ids =>
    rw [accepted_snoc]
    simpa [Turn.accepted?] using h.ids

theorem Delivers.drop (h : Delivers turns l s) (hi : (l'.side s).inbox = none) :
    Delivers (turns ++ [.dropped s]) l' s := by
  constructor
  case stream =>
    rw [isDropped_snoc]
    intro hn
    simp [Turn.drops] at hn
  case gone =>
    intro _
    exact hi
  case ids =>
    rw [accepted_snoc]
    simpa [Turn.accepted?] using h.ids

end

/-! ## Runs -/

/-- What any calls keep, on a link of these names. -/
structure Sound (near far : Address) (turns : List Turn) (l : MemoryLink) : Prop where
  delivers : ∀ s, Delivers turns l s
  closed : l.closed = isClosed turns
  next : ∀ s, isDropped turns s.other = false → (l.side s).nextId = UInt32.ofNat ((accepted turns s).length + 1)
  peer : ∀ s, l.peer s = (connect near far).peer s
  results : ∀ past s data r future, turns = past ++ .sent s data r :: future →
    r = outcome past s ((connect near far).peer s)

section
variable {near far : Address} {turns : List Turn} {t : Turn} {l l' : MemoryLink}

theorem sound_connect (near far : Address) : Sound near far [] (connect near far) := by
  constructor
  case delivers =>
    intro s
    refine ⟨fun _ => ⟨[.connected], ?_, rfl⟩, fun hd => (by cases hd), rfl⟩
    cases s <;> rfl
  case closed => rfl
  case next => intro s _; cases s <;> rfl
  case peer => intro s; rfl
  case results =>
    intro past s data r future hs
    simp at hs

theorem Sound.next_snoc (h : Sound near far turns l) (ha : ∀ s, t.accepted? s = none)
    (hn : ∀ s, isDropped turns s.other = false → (l'.side s).nextId = (l.side s).nextId) :
    ∀ s, isDropped (turns ++ [t]) s.other = false →
      (l'.side s).nextId = UInt32.ofNat ((accepted (turns ++ [t]) s).length + 1) := by
  intro s hs
  rw [isDropped_snoc] at hs
  have hs := (Bool.or_eq_false_iff.mp hs).1
  rw [accepted_snoc, ha, hn s hs, h.next s hs]
  simp

/-- A turn that is no send, or one with the outcome that is due. -/
theorem Sound.results_snoc (h : Sound near far turns l)
    (ht : ∀ s data r, t = .sent s data r → r = outcome turns s (l.peer s)) :
    ∀ past s data r future, turns ++ [t] = past ++ .sent s data r :: future →
      r = outcome past s ((connect near far).peer s) := by
  intro past s data r future hs
  rcases snoc_split hs with ⟨rfl, ht'⟩ | ⟨future', -, hs⟩
  · rw [← h.peer]
    exact ht s data r ht'
  · exact h.results past s data r future' hs

theorem Sound.dropped_iff (h : Sound near far turns l) (s : Side) :
    isDropped turns s = true ↔ (l.side s).inbox = none := by
  refine ⟨(h.delivers s).gone, fun hi => ?_⟩
  by_cases hd : isDropped turns s = true
  · exact hd
  · obtain ⟨waiting, hw, -⟩ := (h.delivers s).stream (Bool.eq_false_iff.mpr hd)
    rw [hi] at hw
    cases hw

theorem Sound.idle (h : Sound near far turns l) (hi : ∀ s, (l'.side s).inbox = (l.side s).inbox)
    (hn : ∀ s, isDropped turns s.other = false → (l'.side s).nextId = (l.side s).nextId)
    (hc : l'.closed = l.closed) (hp : ∀ s, l'.peer s = l.peer s) (ha : ∀ s, t.accepted? s = none)
    (hr : ∀ s, t.received s = []) (hd : ∀ s, t.drops s = false) (hx : t.closes = true → isClosed turns = true)
    (ht : ∀ s data r, t = .sent s data r → r = outcome turns s (l.peer s)) :
    Sound near far (turns ++ [t]) l' := by
  constructor
  case delivers => exact fun s => (h.delivers s).kept (hi s) (ha s.other) (hr s) hx (hd s)
  case closed => rw [hc, h.closed, isClosed_snoc_of_imp _ _ hx]
  case next => exact h.next_snoc ha hn
  case peer => exact fun s => (hp s).trans (h.peer s)
  case results => exact h.results_snoc ht

theorem Sound.failed (h : Sound near far turns l) {s : Side} {data : Bytes} {f : Failure}
    (hi : ∀ s, (l'.side s).inbox = (l.side s).inbox)
    (hn : ∀ s, isDropped turns s.other = false → (l'.side s).nextId = (l.side s).nextId)
    (hc : l'.closed = l.closed) (hp : ∀ s, l'.peer s = l.peer s) (hf : .error f = outcome turns s (l.peer s)) :
    Sound near far (turns ++ [.sent s data (.error f)]) l' := by
  refine h.idle hi hn hc hp (fun _ => rfl) (fun _ => rfl) (fun _ => rfl) (fun hx => (by cases hx)) ?_
  intro s' data' r ht
  cases ht
  exact hf

theorem Sound.accept (h : Sound near far turns l) {s : Side} {waiting : List Event} (data : Bytes)
    (hc : l.closed = false) (hi : (l.side s.other).inbox = some waiting) :
    Sound near far (turns ++ [.sent s data (.ok (l.side s).nextId)])
      ((l.setSide { l.side s with nextId := (l.side s).nextId + 1 } s).setSide
        { l.side s.other with inbox := some (waiting ++ [.received (l.side s).nextId data]) } s.other) := by
  have hn := (h.delivers s.other).listens hi
  have hnext := h.next s hn
  have hopen : isClosed turns = false := by rw [← h.closed, hc]
  constructor
  case delivers =>
    intro s'
    by_cases hs : s' = s
    · subst hs
      exact (h.delivers s').kept (by simp [side_setSide]) (by simp [Turn.accepted?]) rfl
        (fun hx => (by cases hx)) rfl
    · rw [Side.eq_other hs]
      exact (h.delivers s.other).accept hopen hi hnext (by simp [side_setSide])
  case closed =>
    rw [isClosed_snoc, hopen]
    simpa [Turn.closes] using hc
  case next =>
    intro s' hs'
    rw [isDropped_snoc] at hs'
    have h' := h.next s' (Bool.or_eq_false_iff.mp hs').1
    rw [accepted_snoc]
    by_cases hs : s' = s
    · subst hs
      simp only [side_setSide, Side.ne_other, ite_false, ite_true, Turn.accepted?, Option.toList_some,
        List.length_append, List.length_singleton]
      rw [h', UInt32.ofNat_add (_ + 1)]
      rfl
    · rw [Side.eq_other hs] at h' ⊢
      simpa [side_setSide, Turn.accepted?] using h'
  case peer => simpa using h.peer
  case results =>
    refine h.results_snoc fun s' data' r ht => ?_
    cases ht
    rw [outcome, hopen, hn, hnext]
    rfl

theorem Sound.close (h : Sound near far turns l) (hc : l.closed = false) (s : Side) :
    Sound near far (turns ++ [.closed s]) l.close := by
  have hopen : isClosed turns = false := by rw [← h.closed, hc]
  constructor
  case delivers =>
    intro s'
    apply (h.delivers s').close hopen s
    rw [side_close hc]
    rfl
  case closed =>
    rw [isClosed_snoc, closed_close]
    simp [Turn.closes]
  case next =>
    refine h.next_snoc (fun _ => rfl) fun s' _ => ?_
    rw [side_close hc]
    rfl
  case peer => exact fun s' => (peer_close l s').trans (h.peer s')
  case results => exact h.results_snoc fun s' data r ht => (by cases ht)

theorem Sound.setInbox (h : Sound near far turns l) {s : Side} {inbox : Option (List Event)}
    (hs : Delivers (turns ++ [t]) (l.setSide { l.side s with inbox } s) s) (ha : ∀ s', t.accepted? s' = none)
    (hc : t.closes = false) (hr : t.received s.other = []) (hd : t.drops s.other = false)
    (ht : ∀ s data r, t ≠ .sent s data r) :
    Sound near far (turns ++ [t]) (l.setSide { l.side s with inbox } s) := by
  constructor
  case delivers =>
    intro s'
    by_cases hss : s' = s
    · rw [hss]
      exact hs
    · rw [Side.eq_other hss]
      exact (h.delivers s.other).kept (by simp [side_setSide]) (ha _) hr (fun hx => absurd (hx.symm.trans hc) (by simp)) hd
  case closed =>
    rw [isClosed_snoc, hc, ← h.closed]
    simp
  case next =>
    refine h.next_snoc ha fun s' _ => ?_
    by_cases hss : s' = s
    · simp [side_setSide, hss]
    · simp [side_setSide, hss]
  case peer => simpa using h.peer
  case results => exact h.results_snoc fun s data r he => absurd he (ht s data r)

theorem Sound.acts (h : Sound near far turns l) (ht : l.Acts t l') : Sound near far (turns ++ [t]) l' := by
  cases ht with
  | @late s data hc =>
    refine h.failed (fun _ => rfl) (fun _ _ => rfl) rfl (fun _ => rfl) ?_
    rw [outcome, ← h.closed, hc, if_pos rfl]
  | @abandoned s data hc hi =>
    -- the id is used up, but no send of `s` will be accepted any more that could show it
    have hgone := (h.dropped_iff s.other).mpr hi
    refine h.failed (fun s' => ?_) (fun s' hs' => ?_) (by simp) (by simp) ?_
    · by_cases hs : s' = s
      · simp [side_setSide, hs]
      · simp [side_setSide, hs]
    · rw [side_setSide, if_neg]
      rintro rfl
      exact absurd (hgone.symm.trans hs') (by simp)
    · rw [outcome, ← h.closed, hc, hgone]
      rfl
  | accepted data hc hi => exact h.accept data hc hi
  | closed hc => exact h.close hc _
  | closedAgain hc =>
    exact h.idle (fun _ => rfl) (fun _ _ => rfl) rfl (fun _ => rfl) (fun _ => rfl) (fun _ => rfl) (fun _ => rfl)
      (fun _ => h.closed ▸ hc) fun s' data r ht => (by cases ht)
  | @took s events rest hi =>
    refine h.setInbox ((h.delivers s).take hi (by simp [side_setSide])) (fun _ => rfl) rfl ?_ rfl ?_
    · simp [Turn.received]
    · intro s' data r he
      cases he
  | @tookNothing s =>
    refine h.idle (fun _ => rfl) (fun _ _ => rfl) rfl (fun _ => rfl) (fun _ => rfl) (fun s' => ?_) (fun _ => rfl)
      (fun hx => (by cases hx)) fun s' data r ht => (by cases ht)
    simp [Turn.received]
  | @dropped s =>
    refine h.setInbox ((h.delivers s).drop (by simp [side_setSide])) (fun _ => rfl) rfl rfl ?_ ?_
    · simp [Turn.drops]
    · intro s' data r he
      cases he

theorem sound_play (near far : Address) (calls : List Call) :
    Sound near far ((connect near far).play calls).1 ((connect near far).play calls).2 := by
  induction calls using List.reverseRecOn with
  | nil => exact sound_connect near far
  | append_singleton calls call ih =>
    unfold play at ih ⊢
    rw [List.foldl_append]
    exact ih.acts (turn_acts _ call)

end

theorem isOk_outcome (turns : List Turn) (s : Side) (name : Address) : (outcome turns s name).isOk = true ↔
    isClosed turns = false ∧ isDropped turns s.other = false := by
  unfold outcome
  by_cases hc : isClosed turns = true
  · simp [hc, Except.isOk, Except.toBool]
  · by_cases hd : isDropped turns s.other = true
    · simp [hc, hd, Except.isOk, Except.toBool]
    · simp [hc, hd, Except.isOk, Except.toBool]

/-- **Delivery.** Each side gets what the other side sent until the link was closed, in order; no send is
accepted later, nor by a stream that was dropped. -/
theorem delivers_in_order (near far : Address) (calls : List Call) :
    let h := (connect near far).play calls
    (∀ s, Delivers h.1 h.2 s) ∧ ∀ past s data r future, h.1 = past ++ .sent s data r :: future →
      r = outcome past s ((connect near far).peer s) ∧
        (r.isOk = true ↔ isClosed past = false ∧ isDropped past s.other = false) := by
  have h := sound_play near far calls
  refine ⟨h.delivers, fun past s data r future hs => ?_⟩
  have hr := h.results past s data r future hs
  refine ⟨hr, ?_⟩
  rw [hr]
  exact isOk_outcome past s _

/-- Both sides close, and the one that closed first stops listening. -/
theorem delivers_in_order_closed_twice :
    let h := (connect "a" "b").play [.send .near [5], .take .far, .close .far, .send .near [6], .close .near,
      .drop .near, .send .far [7], .take .far]
    (isDropped h.1 .far = false ∧ ∃ waiting, (h.2.side .far).inbox = some waiting ∧
      received h.1 .far ++ waiting = [.connected, .received 1 [5], .disconnected]) ∧
    ∃ past r future, h.1 = past ++ .sent .near [6] r :: future ∧ isClosed past = true ∧
      r = .error (.sendFailure "link to b closed") := by
  obtain ⟨hd, hr⟩ := delivers_in_order "a" "b" [.send .near [5], .take .far, .close .far, .send .near [6],
    .close .near, .drop .near, .send .far [7], .take .far]
  let past : List Turn := [.sent .near [5] (.ok 1), .took .far [.connected], .closed .far]
  exact ⟨⟨rfl, (hd .far).stream rfl⟩, past, _, _, rfl, rfl, (hr past .near [6] _ _ rfl).1⟩

end MemoryLink

end Switchboard
