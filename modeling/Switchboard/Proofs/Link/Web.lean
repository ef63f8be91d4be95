import Mathlib.Data.List.Induction
import Switchboard.Proofs.Link.Sides
import Switchboard.Proofs.Packet

/-!
# WebSocket links beside memory links

A WebSocket link packs each payload with its id and unpacks it where it arrives. What is sent over it gets
the ids, and comes to the events, that it gets and comes to over a memory link, whenever its frames are passed
on and read and whatever gets between them (`carries_as_memory`).
-/

namespace Switchboard

/-! ## Frames -/

/-- Nothing comes of such a frame, nor does it end a connection. -/
def Frame.ignored : Frame → Bool
  | .binary data => data.length < 4
  | .text _ | .ping _ | .pong _ => true
  | .close => false

theorem Frame.event?_of_ignored {f : Frame} (h : f.ignored = true) : f.event? = none := by
  cases f with
  | binary data =>
    have hl : ¬ 4 ≤ data.length := Nat.not_le.mpr (by simpa [ignored] using h)
    cases hd : Packet.decode data with
    | error e => simp [event?, hd]
    | ok p =>
      refine absurd ((Packet.decode_isOk_iff data).mp ?_) hl
      rw [hd]
      rfl
  | text | ping | pong => rfl
  | close => cases h

theorem Frame.event?_encode (p : Packet) : (Frame.binary p.encode).event? = some (.received p.id p.payload) := by
  simp [event?, Packet.decode_encode]

/-- Ignored frames are put between others, anywhere. -/
inductive Laced : List Frame → List Frame → Prop
  | nil : Laced [] []
  | keep (f : Frame) {frames laced : List Frame} (h : Laced frames laced) : Laced (f :: frames) (f :: laced)
  | insert {f : Frame} (hf : f.ignored = true) {frames laced : List Frame} (h : Laced frames laced) :
      Laced frames (f :: laced)

theorem Laced.events {frames laced : List Frame} (h : Laced frames laced) :
    laced.filterMap Frame.event? = frames.filterMap Frame.event? := by
  induction h with
  | nil => rfl
  | keep f h ih => rw [List.filterMap_cons, List.filterMap_cons, ih]
  | insert hf h ih => rw [List.filterMap_cons_none (Frame.event?_of_ignored hf), ih]

/-! ## Payloads -/

/-- The payloads as datagrams, numbered from 1. -/
def enumerated (payloads : List Bytes) : List (UInt32 × Bytes) :=
  payloads.mapIdx fun i data => (UInt32.ofNat (i + 1), data)

/-- The results of sends that are all accepted. -/
def granted (payloads : List Bytes) : List (Except Failure UInt32) :=
  (enumerated payloads).map fun d => .ok d.1

/-- The stream on the other side when all of it has come. -/
def arrivals (payloads : List Bytes) : List Event :=
  .connected :: (enumerated payloads).map fun d => .received d.1 d.2

section
variable (payloads : List Bytes) (data : Bytes)

theorem enumerated_snoc : enumerated (payloads ++ [data]) =
    enumerated payloads ++ [(UInt32.ofNat (payloads.length + 1), data)] := by
  simp [enumerated, List.mapIdx_concat]

theorem granted_snoc :
    granted (payloads ++ [data]) = granted payloads ++ [.ok (UInt32.ofNat (payloads.length + 1))] := by
  simp [granted, enumerated_snoc]

theorem arrivals_snoc : arrivals (payloads ++ [data]) =
    arrivals payloads ++ [.received (UInt32.ofNat (payloads.length + 1)) data] := by
  simp [arrivals, enumerated_snoc]

/-- The next number, which may be 0. -/
theorem ofNat_length_snoc : UInt32.ofNat ((payloads ++ [data]).length + 1) =
    UInt32.ofNat (payloads.length + 1) + 1 := by
  rw [List.length_append, List.length_singleton, UInt32.ofNat_add (_ + 1)]
  rfl

end

section
variable {σ : Type} (send : σ → Bytes → Except Failure UInt32 × σ) (l : σ)

/-- Give payloads to one end of a link, one after the other. -/
def sendAll (payloads : List Bytes) : List (Except Failure UInt32) × σ :=
  payloads.foldl (fun h data => (h.1 ++ [(send h.2 data).1], (send h.2 data).2)) ([], l)

theorem sendAll_snoc (payloads : List Bytes) (data : Bytes) : sendAll send l (payloads ++ [data]) =
    ((sendAll send l payloads).1 ++ [(send (sendAll send l payloads).2 data).1],
      (send (sendAll send l payloads).2 data).2) := by
  rw [sendAll, List.foldl_append]
  rfl

end

/-! ## Over a memory link -/

namespace MemoryLink

/-- Only `s` has used the link, and has sent `payloads`. -/
structure Filled (l : MemoryLink) (s : Side) (payloads : List Bytes) : Prop where
  closed : l.closed = false
  nextId : (l.side s).nextId = UInt32.ofNat (payloads.length + 1)
  inbox : (l.side s.other).inbox = some (arrivals payloads)

variable {l : MemoryLink} {s : Side} {payloads : List Bytes}

theorem filled_connect (near far : Address) (s : Side) : (connect near far).Filled s [] := by
  cases s <;> exact ⟨rfl, rfl, rfl⟩

theorem Filled.send (h : l.Filled s payloads) (data : Bytes) :
    (l.send s data).1 = .ok (UInt32.ofNat (payloads.length + 1)) ∧
      (l.send s data).2.Filled s (payloads ++ [data]) := by
  rw [send_of_listening h.closed h.inbox, h.nextId]
  refine ⟨rfl, ?_, ?_, ?_⟩
  · simpa using h.closed
  · simp [side_setSide]
  · simp [side_setSide, arrivals_snoc]

theorem filled_sendAll (near far : Address) (s : Side) (payloads : List Bytes) :
    (sendAll (MemoryLink.send · s ·) (connect near far) payloads).1 = granted payloads ∧
      (sendAll (MemoryLink.send · s ·) (connect near far) payloads).2.Filled s payloads := by
  induction payloads using List.reverseRecOn with
  | nil => exact ⟨rfl, filled_connect near far s⟩
  | append_singleton payloads data ih =>
    obtain ⟨hr, hf⟩ := ih.2.send data
    rw [sendAll_snoc, ih.1, granted_snoc, hr]
    exact ⟨rfl, hf⟩

end MemoryLink

/-! ## Over a WebSocket link -/

namespace WebLink

/-- A link between `near` and `far` through which `s` has sent payloads, with what the sends came to. Frames
are passed on and read at any time, and others get between them that are ignored. -/
inductive Conveys (near far : Address) (s : Side) : List Bytes → List (Except Failure UInt32) → WebLink → Prop
  | connect : Conveys near far s [] [] (.connect near far)
  | send {payloads : List Bytes} {results : List (Except Failure UInt32)} {l : WebLink} (data : Bytes)
      (h : Conveys near far s payloads results l) :
      Conveys near far s (payloads ++ [data]) (results ++ [(l.send s data).1]) (l.send s data).2
  | passOn {payloads : List Bytes} {results : List (Except Failure UInt32)} {l l' : WebLink}
      (h : Conveys near far s payloads results l) (hl : l.passOn? s = some l') : Conveys near far s payloads results l'
  | insert {payloads : List Bytes} {results : List (Except Failure UInt32)} {l : WebLink} {f : Frame}
      (h : Conveys near far s payloads results l) (hf : f.ignored = true) :
      Conveys near far s payloads results (l.arrive s.other f)
  | read {payloads : List Bytes} {results : List (Except Failure UInt32)} {l l' : WebLink}
      (h : Conveys near far s payloads results l) (hl : l.read? s.other = some l') :
      Conveys near far s payloads results l'

theorem conveys_sendAll (near far : Address) (s : Side) (payloads : List Bytes) :
    Conveys near far s payloads (sendAll (WebLink.send · s ·) (connect near far) payloads).1
      (sendAll (WebLink.send · s ·) (connect near far) payloads).2 := by
  induction payloads using List.reverseRecOn with
  | nil => exact .connect
  | append_singleton payloads data ih =>
    rw [sendAll_snoc]
    exact ih.send data

variable {l l' : WebLink} {s : Side} {payloads : List Bytes} {frames arrived : List Frame} {waiting : List Event}

/-- An open link with these frames to be passed on by `s`, these to be read on the other side, and these events
read there. -/
structure Holds (l : WebLink) (s : Side) (frames arrived : List Frame) (waiting : List Event) : Prop where
  severed : l.severed = false
  closed : (l.side s).closed = false
  outbox : (l.side s).outbox = some frames
  arrived : (l.side s.other).arrived = arrived
  reading : (l.side s.other).reading = true
  inbox : (l.side s.other).inbox = some waiting

theorem holds_connect (near far : Address) (s : Side) : (connect near far).Holds s [] [] [.connected] := by
  cases s <;> exact ⟨rfl, rfl, rfl, rfl, rfl, rfl⟩

theorem Holds.send (h : l.Holds s frames arrived waiting) (data : Bytes) :
    (l.send s data).1 = .ok (l.side s).nextId ∧
      ((l.send s data).2.side s).nextId = (l.side s).nextId + 1 ∧
      (l.send s data).2.Holds s (frames ++ [.binary (Packet.encode ⟨(l.side s).nextId, data⟩)]) arrived waiting := by
  simp only [WebLink.send, WebSide.send, h.closed, Bool.false_eq_true, ite_false, h.outbox, side_setSide, ite_true]
  refine ⟨trivial, trivial, ?_⟩
  constructor <;> simp [side_setSide, h.severed, h.arrived, h.reading, h.inbox]

theorem Holds.arrive (h : l.Holds s frames arrived waiting) (f : Frame) :
    (l.arrive s.other f).Holds s frames (arrived ++ [f]) waiting := by
  constructor <;> simp [WebLink.arrive, side_setSide, h.severed, h.closed, h.outbox, h.arrived, h.reading, h.inbox]

theorem Holds.passOn? (h : l.Holds s frames arrived waiting) (hn : .close ∉ frames) (hl : l.passOn? s = some l') :
    ∃ f rest, frames = f :: rest ∧ (l'.side s).nextId = (l.side s).nextId ∧ l'.Holds s rest (arrived ++ [f]) waiting := by
  cases frames with
  | nil => simp [WebLink.passOn?, h.outbox] at hl
  | cons f rest =>
    have hf : f ≠ .close := fun hf => hn (hf ▸ List.mem_cons_self)
    simp only [WebLink.passOn?, h.outbox, h.severed, Bool.false_eq_true, ite_false, hf, Option.some.injEq] at hl
    subst hl
    refine ⟨f, rest, rfl, by simp [WebLink.arrive, side_setSide], Holds.arrive ?_ f⟩
    constructor <;> simp [side_setSide, h.severed, h.closed, h.arrived, h.reading, h.inbox]

theorem Holds.read? (h : l.Holds s frames arrived waiting) (hn : .close ∉ arrived) (hl : l.read? s.other = some l') :
    ∃ f rest, arrived = f :: rest ∧ (l'.side s).nextId = (l.side s).nextId ∧
      l'.Holds s frames rest (waiting ++ f.event?.toList) := by
  cases arrived with
  | nil => simp [WebLink.read?, h.reading, h.arrived, h.severed] at hl
  | cons f rest =>
    refine ⟨f, rest, rfl, ?_⟩
    have hf : f ≠ .close := fun hf => hn (hf ▸ List.mem_cons_self)
    simp only [WebLink.read?, h.reading, h.arrived, Bool.not_true, Bool.false_eq_true, ite_false, Option.some.injEq] at hl
    subst hl
    refine ⟨by simp [side_setSide], ?_⟩
    cases he : f.event? with
    | none => constructor <;> simp [side_setSide, h.severed, h.closed, h.outbox, h.inbox]
    | some e => constructor <;> simp [side_setSide, WebSide.push, h.severed, h.closed, h.outbox, h.inbox]

/-- What is on its way and what has been read come to what the payloads should come to. -/
structure Conveyed (s : Side) (payloads : List Bytes) (results : List (Except Failure UInt32)) (l : WebLink) :
    Prop where
  results : results = granted payloads
  nextId : (l.side s).nextId = UInt32.ofNat (payloads.length + 1)
  holds : ∃ frames arrived waiting, l.Holds s frames arrived waiting ∧ .close ∉ arrived ++ frames ∧
    waiting ++ (arrived ++ frames).filterMap Frame.event? = arrivals payloads

section
variable {near far : Address} {results : List (Except Failure UInt32)}

theorem Conveyed.send (h : Conveyed s payloads results l) (data : Bytes) :
    Conveyed s (payloads ++ [data]) (results ++ [(l.send s data).1]) (l.send s data).2 := by
  obtain ⟨frames, arrived, waiting, hl, hn, he⟩ := h.holds
  obtain ⟨hr, hi, hl'⟩ := hl.send data
  rw [h.nextId] at hr hi hl'
  constructor
  case results => rw [h.results, hr, granted_snoc]
  case nextId => rw [hi, ofNat_length_snoc]
  case holds =>
    -- the frame goes behind all others on their way, as its event goes behind theirs
    refine ⟨_, arrived, waiting, hl', ?_, ?_⟩
    · simpa using hn
    · rw [← List.append_assoc, List.filterMap_append, ← List.append_assoc, he, arrivals_snoc]
      simp [Frame.event?_encode]

theorem Conveyed.insert (h : Conveyed s payloads results l) {f : Frame} (hf : f.ignored = true) :
    Conveyed s payloads results (l.arrive s.other f) := by
  obtain ⟨frames, arrived, waiting, hl, hn, he⟩ := h.holds
  refine ⟨h.results, ?_, frames, arrived ++ [f], waiting, hl.arrive f, ?_, ?_⟩
  · simpa [arrive, side_setSide] using h.nextId
  · have hc : Frame.close ≠ f := by
      rintro rfl
      cases hf
    simpa [hc] using hn
  · simpa [List.filterMap_append, Frame.event?_of_ignored hf] using he

theorem Conveyed.passOn? (h : Conveyed s payloads results l) (hp : l.passOn? s = some l') :
    Conveyed s payloads results l' := by
  obtain ⟨frames, arrived, waiting, hl, hn, he⟩ := h.holds
  obtain ⟨f, rest, rfl, hi, hl'⟩ := hl.passOn? (fun hc => hn (List.mem_append_right _ hc)) hp
  have hs : arrived ++ f :: rest = (arrived ++ [f]) ++ rest := by simp
  rw [hs] at hn he
  exact ⟨h.results, hi.trans h.nextId, rest, arrived ++ [f], waiting, hl', hn, he⟩

theorem Conveyed.read? (h : Conveyed s payloads results l) (hr : l.read? s.other = some l') :
    Conveyed s payloads results l' := by
  obtain ⟨frames, arrived, waiting, hl, hn, he⟩ := h.holds
  obtain ⟨f, rest, rfl, hi, hl'⟩ := hl.read? (fun hc => hn (List.mem_append_left _ hc)) hr
  refine ⟨h.results, hi.trans h.nextId, frames, rest, _, hl', fun hc => hn (List.mem_cons_of_mem f hc), ?_⟩
  rw [← he, List.append_assoc, List.cons_append, List.filterMap_cons]
  cases f.event? <;> rfl

theorem Conveys.conveyed (h : Conveys near far s payloads results l) : Conveyed s payloads results l := by
  induction h with
  | connect => exact ⟨rfl, by cases s <;> rfl, [], [], [.connected], holds_connect near far s, by simp, rfl⟩
  | send data _ ih => exact ih.send data
  | passOn _ hp ih => exact ih.passOn? hp
  | insert _ hf ih => exact ih.insert hf
  | read _ hr ih => exact ih.read? hr

theorem Holds.quiet (h : l.Holds s frames arrived waiting) (hp : l.passOn? s = none)
    (hr : l.read? s.other = none) : frames = [] ∧ arrived = [] := by
  constructor
  · cases frames with
    | nil => rfl
    | cons f rest => simp [WebLink.passOn?, h.outbox, h.severed] at hp
  · cases arrived with
    | nil => rfl
    | cons f rest =>
      cases f <;> simp [WebLink.read?, h.reading, h.arrived] at hr

end

end WebLink

/-! ## Both -/

/-- **One link is as good as the other.** The sends over a WebSocket link come to what they come to over a
memory link; so do the frames on its way with what was read before, whatever else is put between them, and in
the end all of it has been read. -/
theorem WebLink.carries_as_memory (near far : Address) (s : Side) (payloads : List Bytes) :
    let memory := sendAll (MemoryLink.send · s ·) (.connect near far) payloads
    memory.1 = granted payloads ∧ (memory.2.side s.other).inbox = some (arrivals payloads) ∧
    (∃ results l, Conveys near far s payloads results l) ∧
    ∀ results l, Conveys near far s payloads results l →
      results = memory.1 ∧
      (∃ waiting frames, (l.side s.other).inbox = some waiting ∧ (l.side s).outbox = some frames ∧
        ∀ laced, Laced ((l.side s.other).arrived ++ frames) laced →
          (memory.2.side s.other).inbox = some (waiting ++ laced.filterMap Frame.event?)) ∧
      (l.passOn? s = none → l.read? s.other = none →
        (l.side s.other).inbox = (memory.2.side s.other).inbox) := by
  obtain ⟨hm, hf⟩ := MemoryLink.filled_sendAll near far s payloads
  refine ⟨hm, hf.inbox, ⟨_, _, conveys_sendAll near far s payloads⟩, fun results l hc => ?_⟩
  have h := hc.conveyed
  obtain ⟨frames, arrived, waiting, hl, -, he⟩ := h.holds
  refine ⟨h.results.trans hm.symm, ⟨waiting, frames, hl.inbox, hl.outbox, fun laced hx => ?_⟩, fun hp hr => ?_⟩
  · rw [hl.arrived] at hx
    rw [hf.inbox, hx.events, he]
  · obtain ⟨rfl, rfl⟩ := hl.quiet hp hr
    rw [hf.inbox, hl.inbox, ← he]
    simp

/-- A packet and a token are sent, and a ping and a single octet get between their frames. -/
theorem WebLink.carries_as_memory_nested :
    let p := Packet.encode ⟨7, [1]⟩
    [Frame.ping [], .binary (Packet.encode ⟨1, p⟩), .binary apiHandshake, .binary (Packet.encode ⟨2, hello⟩)].filterMap
      Frame.event? = [.received 1 p, .received 2 hello] ∧
    ∃ l, Conveys "a" "b" .near [p, hello] [.ok 1, .ok 2] l ∧ (l.passOn? .near = none ∧ l.read? .far = none) ∧
      (l.side .far).inbox = some [.connected, .received 1 p, .received 2 hello] := by
  intro p
  obtain ⟨-, hi, -, h⟩ := carries_as_memory "a" "b" .near [p, hello]
  have sent := conveys_sendAll "a" "b" .near [p, hello]
  have read := (((((sent.insert (f := .ping []) rfl).passOn rfl).insert (f := .binary apiHandshake) rfl).passOn
    rfl).read rfl |>.read rfl |>.read rfl).read rfl
  refine ⟨?_, _, read, ⟨rfl, rfl⟩, ?_⟩
  · obtain ⟨-, ⟨waiting, frames, hw, hf, hx⟩, -⟩ := h _ _ sent
    obtain rfl := Option.some.inj hf
    obtain rfl := Option.some.inj hw
    have laced := hx _ (.insert (f := .ping []) rfl (.keep _ (.insert (f := .binary apiHandshake) rfl (.keep _ .nil))))
    exact (List.cons.inj (Option.some.inj (laced.symm.trans hi))).2
  · exact ((h _ _ read).2.2 rfl rfl).trans hi

end Switchboard
