import Switchboard.Proofs.Command
import Switchboard.Proofs.Text.Octets

/-!
# The language of commands

Cutting a payload into fields and joining fields undo each other: the payloads that are commands are the
texts that are not empty and do not start with a separator (`Command.inverts_joining`). Of these, control
messages are those whose first field is a reserved word and whose second is not empty, whatever fields follow
(`Control.recognizes_exactly`).
-/

namespace Switchboard

theorem Fields.split_first_eq_nil_iff (sep : Char) (cs : List Char) :
    (split sep cs).1 = [] ↔ cs = [] ∨ cs.head? = some sep := by
  cases cs with
  | nil => simp
  | cons c cs =>
    by_cases h : c = sep
    · subst h
      simp [split_cons_sep]
    · simp [split_cons h, h]

/-- A separator at the start of a text can be told by the first octet. -/
theorem Utf8.head?_encode_iff (cs : List Char) : (encode cs).head? = some 0x2F ↔ cs.head? = some '/' := by
  cases cs with
  | nil => simp [encode]
  | cons c cs =>
    obtain ⟨b, tail, hb, ht⟩ := takeChar_encodeChar c []
    rw [encode_cons, hb, List.cons_append, List.head?_cons, List.head?_cons, Option.some_inj, Option.some_inj]
    constructor
    · rintro rfl
      rw [takeChar_one (by decide)] at ht
      exact (congrArg Prod.fst (Except.ok.inj ht)).symm
    · rintro rfl
      have hs : encodeChar '/' = [0x2F] := by decide
      rw [hs] at hb
      exact (List.cons.inj hb).1.symm

theorem Utf8.encode_eq_nil_iff (cs : List Char) : encode cs = [] ↔ cs = [] := by
  constructor
  · intro h
    exact encode_inj (h.trans rfl)
  · rintro rfl
    rfl

namespace Command

/-! ## Joining -/

theorem toText_cons (name p : String) (ps : List String) :
    toText ⟨name, p :: ps⟩ = name ++ "/" ++ toText ⟨p, ps⟩ := by
  apply String.toList_inj.mp
  simp [toText, Fields.join, separator]

theorem toText_eq_intercalate (c : Command) : c.toText = "/".intercalate (c.name :: c.params) := by
  obtain ⟨name, params⟩ := c
  induction params generalizing name with
  | nil => rw [toText_nil, String.intercalate_singleton]
  | cons p ps ih => rw [toText_cons, String.intercalate_cons_cons, ih]

theorem wellFormed_iff (c : Command) :
    c.WellFormed ↔ c.name ≠ "" ∧ ∀ field ∈ c.name :: c.params, '/' ∉ field.toList := by
  rw [List.forall_mem_cons]
  exact ⟨fun h => ⟨h.named, h.name, h.params⟩, fun h => ⟨h.1, h.2.1, h.2.2⟩⟩

/-! ## Cutting -/

theorem ofBytes_isOk_iff (data : Bytes) : (∃ c, ofBytes data = .ok c) ↔
    data.toByteArray.IsValidUTF8 ∧ data ≠ [] ∧ data.head? ≠ some 0x2F := by
  rw [← Utf8.decode_isOk_iff]
  constructor
  · rintro ⟨c, hc⟩
    obtain ⟨hw, rfl⟩ := ofBytes_eq_ok hc
    have hn : ¬ (c.toText.toList = [] ∨ c.toText.toList.head? = some separator) := by
      rw [← Fields.split_first_eq_nil_iff, split_toText hw]
      exact toList_ne_nil.mpr hw.named
    refine ⟨⟨_, Utf8.decode_encode _⟩, fun h => hn (.inl ?_), fun h => hn (.inr ?_)⟩
    · exact (Utf8.encode_eq_nil_iff _).mp h
    · exact (Utf8.head?_encode_iff _).mp h
  · rintro ⟨⟨text, hd⟩, hn, hs⟩
    rw [(Utf8.decode_eq_ok_iff data text).mp hd] at hn hs
    have he : (Fields.split separator text).1.isEmpty = false := by
      rw [List.isEmpty_eq_false_iff, Ne, Fields.split_first_eq_nil_iff]
      rintro (h | h)
      · exact hn ((Utf8.encode_eq_nil_iff text).mpr h)
      · exact hs ((Utf8.head?_encode_iff text).mpr h)
    unfold ofBytes
    rw [hd]
    simp only [he, Bool.false_eq_true, ite_false]
    exact ⟨_, rfl⟩

theorem ofBytes_eq_error {data : Bytes} {f : Failure} (h : ofBytes data = .error f) :
    (∃ m, Utf8.decode data = .error m ∧ f = .invalidCommand ("not utf-8: " ++ m.message)) ∨
      (data.toByteArray.IsValidUTF8 ∧ f = .invalidCommand "empty command name") := by
  unfold ofBytes at h
  cases hd : Utf8.decode data with
  | error m =>
    rw [hd] at h
    obtain rfl := Except.error.inj h
    exact .inl ⟨m, rfl, rfl⟩
  | ok text =>
    rw [hd] at h
    dsimp only at h
    split at h
    · obtain rfl := Except.error.inj h
      exact .inr ⟨(Utf8.decode_isOk_iff data).mp ⟨text, hd⟩, rfl⟩
    · cases h

/-- **Cutting and joining are inverse.** A payload is a command exactly if it is UTF-8, not empty and does not
start with a separator; joining its fields then gives it back. Every name that is not empty and every list of
parameters without separators come back from the payload that they are joined to. -/
theorem inverts_joining :
    (∀ data : Bytes,
      ((∃ c, ofBytes data = .ok c) ↔
        data.toByteArray.IsValidUTF8 ∧ data ≠ [] ∧ data.head? ≠ some 0x2F) ∧
      (∀ c, ofBytes data = .ok c → ("/".intercalate (c.name :: c.params)).toUTF8 = data.toByteArray ∧
        c.name ≠ "" ∧ ∀ field ∈ c.name :: c.params, '/' ∉ field.toList) ∧
      ∀ f, ofBytes data = .error f →
        (∃ m, Utf8.decode data = .error m ∧ f = .invalidCommand ("not utf-8: " ++ m.message)) ∨
          (data.toByteArray.IsValidUTF8 ∧ f = .invalidCommand "empty command name")) ∧
    ∀ (name : String) (params : List String), name ≠ "" → (∀ field ∈ name :: params, '/' ∉ field.toList) →
      ∀ data : Bytes, data.toByteArray = ("/".intercalate (name :: params)).toUTF8 →
        ofBytes data = .ok ⟨name, params⟩ := by
  refine ⟨fun data => ⟨ofBytes_isOk_iff data, fun c hc => ?_, fun f hf => ofBytes_eq_error hf⟩, ?_⟩
  · obtain ⟨hw, rfl⟩ := ofBytes_eq_ok hc
    rw [toByteArray_toBytes, toText_eq_intercalate]
    exact ⟨rfl, (wellFormed_iff c).mp hw⟩
  · intro name params hn hs data hd
    rw [← toText_eq_intercalate ⟨name, params⟩] at hd
    rw [toByteArray_eq_iff.mp hd]
    exact ofBytes_toBytes ((wellFormed_iff _).mpr ⟨hn, hs⟩)

/-- Two empty parameters behind a name of two octets, and an octet that is no text. -/
theorem inverts_joining_empty_fields :
    "é" ≠ "" ∧ (∀ field ∈ ["é", "", ""], '/' ∉ field.toList) ∧
    ofBytes [0xC3, 0xA9, 0x2F, 0x2F] = .ok ⟨"é", ["", ""]⟩ ∧
    ("/".intercalate ["é", "", ""]).toUTF8 = List.toByteArray [0xC3, 0xA9, 0x2F, 0x2F] ∧
    ofBytes [0xC3, 0xA9, 0x2F, 0xFF] =
      .error (.invalidCommand "not utf-8: invalid utf-8 sequence of 1 bytes from index 3") ∧
    ∃ m, Utf8.decode [0xC3, 0xA9, 0x2F, 0xFF] = .error m ∧
      m.message = "invalid utf-8 sequence of 1 bytes from index 3" := by
  have hn : "é" ≠ "" := by decide
  have hs : ∀ field ∈ ["é", "", ""], '/' ∉ field.toList := by decide
  have hok := inverts_joining.2 "é" ["", ""] hn hs [0xC3, 0xA9, 0x2F, 0x2F] (by decide +kernel)
  have herr : ofBytes [0xC3, 0xA9, 0x2F, 0xFF] =
      .error (.invalidCommand "not utf-8: invalid utf-8 sequence of 1 bytes from index 3") := rfl
  refine ⟨hn, hs, hok, ((inverts_joining.1 _).2.1 _ hok).1, herr, ?_⟩
  rcases (inverts_joining.1 _).2.2 _ herr with ⟨m, hm, hf⟩ | ⟨-, hf⟩
  · have hm' := (Failure.invalidCommand.inj hf).symm
    exact ⟨m, hm, (String.append_right_inj "not utf-8: ").mp (hm'.trans (by decide))⟩
  · exact absurd (Failure.invalidCommand.inj hf) (by decide)

end Command

namespace Control

/-- The octets of `word`, a separator and `target`, and then of nothing or of a separator and any text. -/
def Spells (data : Bytes) (word target : String) : Prop :=
  target ≠ "" ∧ '/' ∉ target.toList ∧ ∃ rest : String, (rest = "" ∨ ∃ text, rest = "/" ++ text) ∧
    data.toByteArray = (word ++ "/" ++ target ++ rest).toUTF8

theorem ofBytes?_eq_some_iff (data : Bytes) (c : Control) :
    ofBytes? data = some c ↔ Spells data c.word c.target := by
  constructor
  · intro h
    obtain ⟨ht, ps, hc⟩ := ofBytes?_eq_some h
    obtain ⟨hw, rfl⟩ := Command.ofBytes_eq_ok hc
    refine ⟨ht, hw.params _ (List.mem_cons_self ..), ?_⟩
    rw [toByteArray_toBytes, Command.toText_cons]
    cases ps with
    | nil => exact ⟨"", .inl rfl, by rw [Command.toText_nil, String.append_empty]⟩
    | cons p ps =>
      refine ⟨"/" ++ Command.toText ⟨p, ps⟩, .inr ⟨_, rfl⟩, ?_⟩
      rw [Command.toText_cons]
      simp only [String.append_assoc]
  · rintro ⟨ht, hs, rest, hr, hd⟩
    rw [toByteArray_eq_iff] at hd
    have hw := c.wellFormed_command hs
    rcases hr with rfl | ⟨text, rfl⟩
    · rw [hd, String.append_empty]
      exact ofBytes?_toBytes ht hs
    · have hc := hw.ofBytes_append text
      rw [← toText_eq, toText, String.append_assoc, ← hd] at hc
      exact ofBytes?_of_command ht hc

theorem ofBytes?_toBytes_iff (c : Control) :
    ofBytes? c.toBytes = some c ↔ c.target ≠ "" ∧ '/' ∉ c.target.toList := by
  constructor
  · intro h
    have hn := names_of_ofBytes? h
    exact ⟨hn.1, hn.2.1⟩
  · rintro ⟨ht, hs⟩
    exact ofBytes?_toBytes ht hs

theorem Spells.isValidUTF8 {data : Bytes} {word target : String} (h : Spells data word target) :
    data.toByteArray.IsValidUTF8 := by
  obtain ⟨-, -, rest, -, hd⟩ := h
  rw [hd, String.toUTF8_eq_toByteArray]
  exact String.isValidUTF8 _

theorem ofBytes?_eq_none_iff (data : Bytes) :
    ofBytes? data = none ↔ ∀ t, ¬ Spells data "subscribe" t ∧ ¬ Spells data "unsubscribe" t := by
  constructor
  · intro h t
    refine ⟨fun hs => ?_, fun hs => ?_⟩
    · rw [(ofBytes?_eq_some_iff data (.subscribe t)).mpr hs] at h
      cases h
    · rw [(ofBytes?_eq_some_iff data (.unsubscribe t)).mpr hs] at h
      cases h
  · intro h
    cases hc : ofBytes? data with
    | none => rfl
    | some c =>
      have hs := (ofBytes?_eq_some_iff data c).mp hc
      cases c with
      | subscribe t => exact absurd hs (h t).1
      | unsubscribe t => exact absurd hs (h t).2

/-- One word ends in the other, and no payload starts with both. -/
theorem not_spells_both (data : Bytes) (s t : String) :
    ¬ (Spells data "subscribe" s ∧ Spells data "unsubscribe" t) := by
  rintro ⟨hs, ht⟩
  have hsub := (ofBytes?_eq_some_iff data (.subscribe s)).mpr hs
  rw [(ofBytes?_eq_some_iff data (.unsubscribe t)).mpr ht] at hsub
  cases hsub

/-- **Control messages are recognized exactly.** A payload asks for a subscription, or for its end, exactly if it
spells the word and the target; no payload spells both, and one that spells neither, or is not UTF-8, is no
control message. So a target reads back from its own message unless it is empty or has a separator. -/
theorem recognizes_exactly (data : Bytes) :
    (∀ t, ofBytes? data = some (.subscribe t) ↔ Spells data "subscribe" t) ∧
    (∀ t, ofBytes? data = some (.unsubscribe t) ↔ Spells data "unsubscribe" t) ∧
    (ofBytes? data = none ↔ ∀ t, ¬ Spells data "subscribe" t ∧ ¬ Spells data "unsubscribe" t) ∧
    (¬ data.toByteArray.IsValidUTF8 → ofBytes? data = none) ∧
    (∀ s t, ¬ (Spells data "subscribe" s ∧ Spells data "unsubscribe" t)) ∧
    ∀ x : String, (ofBytes? (subscribe x).toBytes = some (.subscribe x) ↔ x ≠ "" ∧ '/' ∉ x.toList) ∧
      (ofBytes? (unsubscribe x).toBytes = some (.unsubscribe x) ↔ x ≠ "" ∧ '/' ∉ x.toList) := by
  refine ⟨fun t => ofBytes?_eq_some_iff data (.subscribe t), fun t => ofBytes?_eq_some_iff data (.unsubscribe t),
    ofBytes?_eq_none_iff data, fun hv => ?_, not_spells_both data,
    fun x => ⟨ofBytes?_toBytes_iff (.subscribe x), ofBytes?_toBytes_iff (.unsubscribe x)⟩⟩
  refine (ofBytes?_eq_none_iff data).mpr fun t => ⟨fun h => hv ?_, fun h => hv ?_⟩
  · exact h.isValidUTF8
  · exact h.isValidUTF8

/-- An octet that is no text spoils a message, even behind the target. -/
theorem recognizes_exactly_stray_octet :
    ¬ (Switchboard.toBytes "subscribe/chat/" ++ [0xFF]).toByteArray.IsValidUTF8 ∧
    ofBytes? (Switchboard.toBytes "subscribe/chat/" ++ [0xFF]) = none := by
  have hv : ¬ (Switchboard.toBytes "subscribe/chat/" ++ [0xFF]).toByteArray.IsValidUTF8 := by
    rw [← Utf8.decode_isOk_iff]
    rintro ⟨cs, hd⟩
    have he : Utf8.decode (Switchboard.toBytes "subscribe/chat/" ++ [0xFF]) = .error ⟨15, .invalid 1⟩ := rfl
    rw [he] at hd
    cases hd
  exact ⟨hv, (recognizes_exactly _).2.2.2.1 hv⟩

end Control

end Switchboard
