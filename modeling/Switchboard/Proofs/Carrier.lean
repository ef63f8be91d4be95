import Switchboard.Endpoint

/-!
# What is sent

`Carrier.recorded` is a carrier that also lists what it was given, so that running an operation over it
shows the datagrams of that operation. `Carrier.Sends` is the chain of sends behind such a list.
`FailsForGood` describes connections on which a refused send is followed by refused sends only.
-/

namespace Switchboard

/-- A datagram given to an endpoint, and what became of it. -/
structure Sending where
  endpoint : Endpoint
  data : Bytes
  result : Except Failure UInt32

/-- The number of datagrams that were accepted. -/
def copies (sent : List Sending) : Nat := sent.countP (·.result.isOk)

namespace Carrier

variable {ω : Type}

def recorded (c : Carrier ω) : Carrier (ω × List Sending) where
  send w e data :=
    let r := c.send w.1 e data
    (r.1, r.2, w.2 ++ [⟨e, data, r.1⟩])

theorem recorded_send (c : Carrier ω) (w : ω) (log : List Sending) (e : Endpoint) (data : Bytes) :
    c.recorded.send (w, log) e data =
      ((c.send w e data).1, (c.send w e data).2, log ++ [⟨e, data, (c.send w e data).1⟩]) := rfl

/-- Giving the datagrams of a list to their endpoints, one after the other, leads from one state of the
connections to another. -/
inductive Sends (c : Carrier ω) : ω → List Sending → ω → Prop
  | nil (w : ω) : Sends c w [] w
  | cons {w w' : ω} {e : Endpoint} {data : Bytes} {sent : List Sending} :
      Sends c (c.send w e data).2 sent w' → Sends c w (⟨e, data, (c.send w e data).1⟩ :: sent) w'

theorem Sends.single (c : Carrier ω) (w : ω) (e : Endpoint) (data : Bytes) :
    Sends c w [⟨e, data, (c.send w e data).1⟩] (c.send w e data).2 := .cons (.nil _)

theorem Sends.append {c : Carrier ω} {w w' w'' : ω} {sent sent' : List Sending} (h : c.Sends w sent w')
    (h' : c.Sends w' sent' w'') : c.Sends w (sent ++ sent') w'' := by
  induction h with
  | nil w => exact h'
  | cons hs ih => exact .cons (ih h')

theorem Sends.result {c : Carrier ω} {w w' : ω} {e : Endpoint} {data : Bytes} {r : Except Failure UInt32}
    (h : c.Sends w [⟨e, data, r⟩] w') : r = (c.send w e data).1 := by
  cases h; rfl

/-! ## Connections that fail for good -/

def Refuses (c : Carrier ω) (w : ω) (e : Endpoint) : Prop := ∀ data, (c.send w e data).1.isOk = false

structure FailsForGood (c : Carrier ω) (moves : ω → ω → Prop) : Prop where
  refused : ∀ w e data, (c.send w e data).1.isOk = false → c.Refuses (c.send w e data).2 e
  sent : ∀ w e e' data, c.Refuses w e → c.Refuses (c.send w e' data).2 e
  moved : ∀ w w' e, moves w w' → c.Refuses w e → c.Refuses w' e

section
variable {c : Carrier ω} {moves : ω → ω → Prop} {w w' : ω} {sent : List Sending}

theorem FailsForGood.sends (h : c.FailsForGood moves) (hs : c.Sends w sent w') {e : Endpoint}
    (he : c.Refuses w e) : c.Refuses w' e := by
  induction hs with
  | nil w => exact he
  | @cons w w' e' data sent _ ih => exact ih (h.sent w e e' data he)

theorem FailsForGood.of_refused (h : c.FailsForGood moves) (hs : c.Sends w sent w') {s : Sending}
    (hm : s ∈ sent) (hr : s.result.isOk = false) : c.Refuses w' s.endpoint := by
  induction hs with
  | nil w => cases hm
  | @cons w w' e data sent hs ih =>
    rcases List.mem_cons.mp hm with rfl | hm
    · exact h.sends hs (h.refused w e data hr)
    · exact ih hm

end

end Carrier

theorem isOk_of_copies {sent : List Sending} (h : copies sent = 0) {s : Sending} (hs : s ∈ sent) :
    s.result.isOk = false := by
  unfold copies at h
  simpa using List.countP_eq_zero.mp h s hs

end Switchboard
