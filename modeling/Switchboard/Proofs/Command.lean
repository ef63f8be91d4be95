import Switchboard.Command.Catalogue
import Switchboard.Packet
import Switchboard.Proofs.Text.Utf8

/-!
# Commands as octets

A payload is a command exactly when it is the text of one, and its name is the only one that the payload
equals or goes on from with a separator (`Command.names_iff`). Control messages read back, and what is
read as one starts with its text. Read as a packet, a control message has an id that its word spells.
-/

namespace Switchboard

/-- The payload is `name`, or starts with `name` and a separator. -/
def Names (data : Bytes) (name : String) : Prop := data = toBytes name ∨ toBytes (name ++ "/") <+: data

theorem toList_ne_nil {s : String} : s.toList ≠ [] ↔ s ≠ "" := by
  rw [Ne, String.toList_eq_nil_iff]

theorem Fields.join_append (sep : Char) (first f : List Char) (others fs : List (List Char)) :
    join sep first (others ++ f :: fs) = join sep first others ++ sep :: join sep f fs := by
  simp [join]

theorem map_ofList_toList (ss : List String) : (ss.map String.toList).map String.ofList = ss := by
  simp [Function.comp_def]

theorem map_toList_ofList (fs : List (List Char)) : (fs.map String.ofList).map String.toList = fs := by
  simp [Function.comp_def]

namespace Command

structure WellFormed (c : Command) : Prop where
  named : c.name ≠ ""
  name : separator ∉ c.name.toList
  params : ∀ p ∈ c.params, separator ∉ p.toList

theorem split_toText {c : Command} (h : c.WellFormed) :
    Fields.split separator c.toText.toList = (c.name.toList, c.params.map String.toList) := by
  rw [toText, String.toList_ofList]
  refine Fields.split_join h.name fun f hf => ?_
  obtain ⟨p, hp, rfl⟩ := List.mem_map.mp hf
  exact h.params p hp

theorem ofBytes_toBytes {c : Command} (h : c.WellFormed) : ofBytes (toBytes c.toText) = .ok c := by
  have hn : c.name.toList.isEmpty = false := by
    rw [List.isEmpty_eq_false_iff]
    exact toList_ne_nil.mpr h.named
  unfold ofBytes toBytes
  rw [Utf8.decode_encode]
  dsimp only
  rw [split_toText h]
  simp only [hn, Bool.false_eq_true, ite_false, String.ofList_toList]
  rw [map_ofList_toList]

theorem ofBytes_eq_ok {data : Bytes} {c : Command} (h : ofBytes data = .ok c) :
    c.WellFormed ∧ data = toBytes c.toText := by
  unfold ofBytes at h
  cases hd : Utf8.decode data with
  | error m => rw [hd] at h; cases h
  | ok text =>
    rw [hd] at h
    dsimp only at h
    split at h
    · cases h
    · next hn =>
      obtain rfl := Except.ok.inj h
      obtain ⟨hf, ho⟩ := Fields.not_mem_split separator text
      refine ⟨⟨?_, ?_, fun p hp => ?_⟩, ?_⟩
      · rw [← toList_ne_nil, String.toList_ofList, ← List.isEmpty_eq_false_iff]
        exact Bool.eq_false_iff.mpr hn
      · rw [String.toList_ofList]
        exact hf
      · obtain ⟨f, hm, rfl⟩ := List.mem_map.mp hp
        rw [String.toList_ofList]
        exact ho f hm
      · rw [toBytes, toText, String.toList_ofList, String.toList_ofList, map_toList_ofList, Fields.join_split]
        exact (Utf8.decode_eq_ok_iff data text).mp hd

theorem ofBytes_eq_ok_iff (data : Bytes) (c : Command) :
    ofBytes data = .ok c ↔ c.WellFormed ∧ data = toBytes c.toText :=
  ⟨ofBytes_eq_ok, fun ⟨h, hd⟩ => hd ▸ ofBytes_toBytes h⟩

theorem toText_nil (name : String) : toText ⟨name, []⟩ = name := by
  apply String.toList_inj.mp
  rw [toText, String.toList_ofList]
  simp [Fields.join]

/-- The fields of a text, which may be any text. -/
def fields (text : String) : List String :=
  ((Fields.split separator text.toList).1 :: (Fields.split separator text.toList).2).map .ofList

theorem not_mem_fields {text field : String} (h : field ∈ fields text) : separator ∉ field.toList := by
  obtain ⟨f, hf, rfl⟩ := List.mem_map.mp h
  rw [String.toList_ofList]
  obtain ⟨h1, h2⟩ := Fields.not_mem_split separator text.toList
  rcases List.mem_cons.mp hf with rfl | hf
  · exact h1
  · exact h2 f hf

theorem toText_fields (name : String) (params : List String) (text : String) :
    toText ⟨name, params ++ fields text⟩ = toText ⟨name, params⟩ ++ "/" ++ text := by
  apply String.toList_inj.mp
  rw [toText, String.toList_ofList, fields, List.map_append, map_toList_ofList, Fields.join_append,
    Fields.join_split]
  simp [toText, separator]

/-- Behind a separator, a command goes on with the fields of any text. -/
theorem WellFormed.ofBytes_append {c : Command} (h : c.WellFormed) (text : String) :
    ofBytes (toBytes (c.toText ++ "/" ++ text)) = .ok ⟨c.name, c.params ++ fields text⟩ := by
  rw [← toText_fields c.name c.params text]
  refine ofBytes_toBytes ⟨h.named, h.name, fun p hp => ?_⟩
  rcases List.mem_append.mp hp with hp | hp
  · exact h.params p hp
  · exact not_mem_fields hp

/-- With more parameters, the text of a command goes on behind a separator. -/
theorem names_append (name : String) (params : List String) : ∀ ps : List String,
    Names (toBytes (toText ⟨name, params ++ ps⟩)) (toText ⟨name, params⟩)
  | [] => by rw [List.append_nil]; exact .inl rfl
  | p :: ps => by
    refine .inr ⟨Utf8.encode (Fields.join separator p.toList (ps.map String.toList)), ?_⟩
    rw [toBytes, toBytes, ← Utf8.encode_append, toText, toText, String.toList_append, String.toList_ofList,
      String.toList_ofList]
    simp [Fields.join, separator]

/-- A command has one name, whatever other names its octets start with. -/
theorem names_iff {data : Bytes} {c : Command} (h : ofBytes data = .ok c) {name : String}
    (hs : separator ∉ name.toList) : Names data name ↔ c.name = name := by
  obtain ⟨hw, rfl⟩ := ofBytes_eq_ok h
  have hsplit := split_toText hw
  constructor
  · -- both names are the first field of the text
    intro hn
    have hf : (Fields.split separator c.toText.toList).1 = name.toList := by
      rcases hn with hd | ⟨rest, hd⟩
      · rw [Utf8.encode_inj hd]
        have := Fields.split_append hs []
        rw [List.append_nil] at this
        rw [this, Fields.split_nil, List.append_nil]
      · rw [toBytes, toBytes, eq_comm] at hd
        obtain ⟨es, he, -⟩ := Utf8.encode_eq_append hd
        rw [he, String.toList_append, List.append_assoc, Fields.split_append hs]
        show name.toList ++ (Fields.split separator (separator :: es)).1 = name.toList
        rw [Fields.split_cons_sep, List.append_nil]
    rw [hsplit] at hf
    exact String.toList_inj.mp hf
  · rintro rfl
    have := names_append c.name [] c.params
    rwa [toText_nil] at this

end Command

theorem Catalogue.command_of_resolve {k : Catalogue} {data : Bytes} {invocation : Invocation}
    (h : k.resolve data = .ok invocation) : Command.ofBytes data = .ok invocation.command := by
  unfold resolve at h
  cases hc : Command.ofBytes data with
  | error f => rw [hc] at h; cases h
  | ok c =>
    rw [hc] at h
    dsimp only at h
    split at h
    · cases h
    · obtain rfl := Except.ok.inj h; rfl

namespace Control

theorem word_cases (c : Control) : c.word = "subscribe" ∨ c.word = "unsubscribe" := by
  cases c with
  | subscribe command => exact .inl rfl
  | unsubscribe command => exact .inr rfl

theorem ofBytes?_eq_some {data : Bytes} {c : Control} (h : ofBytes? data = some c) :
    c.target ≠ "" ∧ ∃ ps, Command.ofBytes data = .ok ⟨c.word, c.target :: ps⟩ := by
  unfold ofBytes? at h
  split at h
  · next name command ps hc =>
    split at h
    · cases h
    · next hn =>
      have hne : command ≠ "" := fun he => hn (by rw [he]; rfl)
      split at h
      · next hw =>
        obtain rfl := Option.some.inj h
        exact ⟨hne, ps, by rw [hc, hw]; rfl⟩
      · split at h
        · next hw =>
          obtain rfl := Option.some.inj h
          exact ⟨hne, ps, by rw [hc, hw]; rfl⟩
        · cases h
  · cases h

theorem ofBytes?_of_command {data : Bytes} {c : Control} {ps : List String} (ht : c.target ≠ "")
    (h : Command.ofBytes data = .ok ⟨c.word, c.target :: ps⟩) : ofBytes? data = some c := by
  have hn : c.target.isEmpty = false := by
    rw [Bool.eq_false_iff, Ne, String.isEmpty_iff]; exact ht
  unfold ofBytes?
  rw [h]
  simp only [hn, Bool.false_eq_true, ite_false]
  cases c <;> rfl

theorem toText_eq (c : Control) : c.toText = Command.toText ⟨c.word, [c.target]⟩ := by
  apply String.toList_inj.mp
  rw [Command.toText, String.toList_ofList, toText, String.toList_append, String.toList_append,
    List.append_assoc]
  simp [Fields.join, Command.separator]

/-- What is read as a control message starts with its text. -/
theorem names_of_ofBytes? {data : Bytes} {c : Control} (h : ofBytes? data = some c) :
    c.target ≠ "" ∧ Command.separator ∉ c.target.toList ∧ Names data c.toText := by
  obtain ⟨ht, ps, hc⟩ := ofBytes?_eq_some h
  obtain ⟨hw, rfl⟩ := Command.ofBytes_eq_ok hc
  rw [toText_eq]
  exact ⟨ht, hw.params _ (List.mem_cons_self ..), Command.names_append c.word [c.target] ps⟩

theorem wellFormed_word (c : Control) : Command.WellFormed ⟨c.word, []⟩ := by
  have hw : c.word ≠ "" ∧ Command.separator ∉ c.word.toList := by
    rcases c.word_cases with h | h <;> rw [h] <;> decide
  exact ⟨hw.1, hw.2, fun p hp => absurd hp List.not_mem_nil⟩

theorem wellFormed_command (c : Control) (hs : Command.separator ∉ c.target.toList) :
    Command.WellFormed ⟨c.word, [c.target]⟩ :=
  ⟨c.wellFormed_word.named, c.wellFormed_word.name, by simpa using hs⟩

/-- A control message is a command with the fields of its target. -/
theorem command_of_toBytes (c : Control) :
    Command.ofBytes c.toBytes = .ok ⟨c.word, Command.fields c.target⟩ := by
  have hc := c.wellFormed_word.ofBytes_append c.target
  rwa [Command.toText_nil] at hc

theorem ofBytes?_toBytes {c : Control} (ht : c.target ≠ "") (hs : Command.separator ∉ c.target.toList) :
    ofBytes? c.toBytes = some c := by
  have hc : Command.ofBytes c.toBytes = .ok ⟨c.word, [c.target]⟩ := by
    rw [toBytes, toText_eq]
    exact Command.ofBytes_toBytes (c.wellFormed_command hs)
  exact ofBytes?_of_command ht hc

/-! ## Control messages as packets -/

/-- The first four octets of the word, as an id. -/
def wordId : Control → UInt32
  | subscribe _ => 0x73627573
  | unsubscribe _ => 0x75736E75

theorem decode_of_word {c : Control} {id : UInt32} (rest : Bytes)
    (h : Switchboard.toBytes c.word = Packet.header id ++ rest) :
    ∃ payload, Packet.decode c.toBytes = .ok ⟨id, payload⟩ := by
  refine ⟨rest ++ Switchboard.toBytes ("/" ++ c.target), ?_⟩
  rw [toBytes, toText, String.append_assoc, toBytes_append, h, List.append_assoc]
  exact Packet.decode_encode ⟨id, _⟩

theorem decode_toBytes (c : Control) : ∃ payload, Packet.decode c.toBytes = .ok ⟨c.wordId, payload⟩ := by
  cases c with
  | subscribe command =>
    have hw : Switchboard.toBytes "subscribe" =
        Packet.header 0x73627573 ++ Switchboard.toBytes "cribe" := by decide +kernel
    exact decode_of_word _ hw
  | unsubscribe command =>
    have hw : Switchboard.toBytes "unsubscribe" =
        Packet.header 0x75736E75 ++ Switchboard.toBytes "bscribe" := by decide +kernel
    exact decode_of_word _ hw

theorem toBytes_ne_hello (c : Control) : c.toBytes ≠ hello := by
  intro h
  obtain ⟨payload, hp⟩ := c.decode_toBytes
  have hh : hello = Packet.encode ⟨0x736E6F43, Switchboard.toBytes "umer"⟩ := by decide +kernel
  rw [h, hh, Packet.decode_encode] at hp
  have hid : 0x736E6F43 = c.wordId := congrArg Packet.id (Except.ok.inj hp)
  have hne : c.wordId ≠ 0x736E6F43 := by cases c <;> simp [wordId]
  exact hne hid.symm

end Control

end Switchboard
