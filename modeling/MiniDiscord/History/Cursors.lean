import MiniDiscord.Encoding.Base64
import MiniDiscord.Encoding.JsonText
import MiniDiscord.Encoding.Timestamps
import MiniDiscord.Commands.Types

/-! # The texts of cursors

A cursor is a JSON object in Base64. The texts are bytes, and a text that does not decode
is none.
-/
namespace MiniDiscord.MessageHistory
open ChatHub SfuTrack Decimal JsonText Rfc3339

structure WsMessageCursor where
  channelID : ChannelID
  createdAt : Timestamp
  id : MessageID
  deriving DecidableEq

def WsMessageCursor.zero : WsMessageCursor := ⟨0,.zero,0⟩

/-! ## Writing -/

def intText (n : ℤ) : Bytes := if n < 0 then 45 :: natText n.natAbs else natText n.natAbs

/-- `json.Marshal`, which fails where a timestamp has no text. -/
def marshal (cursor : WsMessageCursor) : Option Bytes :=
  cursor.createdAt.text.map fun createdAt =>
    objectText
      [(ascii "channel_id",.number (intText cursor.channelID)),
        (ascii "created_at",.string createdAt),
        (ascii "id",.number (intText cursor.id))]

def encodeWsMessageCursor (cursor : WsMessageCursor) : Option Bytes :=
  (marshal cursor).map Base64.encode

/-! ## Reading -/

/-- `strconv.ParseInt` of a JSON number: digits only, within 64 bits. -/
def parseInt (text : Bytes) : Option ℤ :=
  let (sign,digits) := takeSign text
  let n : ℤ := if sign = [] then value digits else -value digits
  if digits ≠ [] ∧ digits.all isDigit ∧ -2 ^ 63 ≤ n ∧ n < 2 ^ 63 then some n else none

def hexValue (c : UInt8) : ℕ :=
  if isDigit c then c.toNat - 48 else if c ≤ 70 then c.toNat - 55 else c.toNat - 87

/-- What an escaped letter stands for. -/
def escaped (c : UInt8) : ℕ :=
  if c = 98 then 8 else if c = 102 then 12 else if c = 110 then 10 else if c = 114 then 13
  else if c = 116 then 9 else c.toNat

/-- The characters of a key. Beyond ASCII they are only told apart from ASCII. -/
def keyChars : Bytes → List ℕ
  | [] => []
  | 92 :: 117 :: a :: b :: c :: d :: rest =>
    (((hexValue a * 16 + hexValue b) * 16 + hexValue c) * 16 + hexValue d) :: keyChars rest
  | 92 :: c :: rest => escaped c :: keyChars rest
  | c :: rest => c.toNat :: keyChars rest

def lower (c : ℕ) : ℕ := if 65 ≤ c ∧ c ≤ 90 then c + 32 else c

/-- Keys are matched without regard to case. -/
def isKey (key : Bytes) (name : String) : Bool :=
  (keyChars key).map lower = (ascii name).map UInt8.toNat

/-- `null` leaves a field as it is. -/
def readInt (old : ℤ) : Json → Option ℤ
  | .null => some old
  | .number text => parseInt text
  | _ => none

def readTimestamp (old : Timestamp) : Json → Option Timestamp
  | .null => some old
  | .string text => Rfc3339.parse text
  | _ => none

def setField (cursor : WsMessageCursor) (m : Bytes × Json) : Option WsMessageCursor :=
  if isKey m.1 "channel_id" then
    (readInt cursor.channelID m.2).map fun n => { cursor with channelID := n }
  else if isKey m.1 "created_at" then
    (readTimestamp cursor.createdAt m.2).map fun t => { cursor with createdAt := t }
  else if isKey m.1 "id" then (readInt cursor.id m.2).map fun n => { cursor with id := n }
  else some cursor

/-- `json.Unmarshal` into the zero cursor. -/
def unmarshal (text : Bytes) : Option WsMessageCursor :=
  match JsonText.parse text with
  | some (.object ms) => ms.foldlM setField .zero
  | some .null => some .zero
  | _ => none

/-- No text is no cursor. -/
def decodeWsMessageCursor (raw : Bytes) : Option (Option WsMessageCursor) :=
  if raw = [] then some none
  else (Base64.decode raw).bind fun text =>
    (unmarshal text).bind fun cursor =>
      if cursor.channelID ≤ 0 ∨ cursor.id ≤ 0 ∨ cursor.createdAt.isZero = true then none
      else some (some cursor)

/-! ## A cursor that is written is read -/

variable {n : ℤ} {cursor : WsMessageCursor} {raw : Bytes}

theorem intText_of_pos (h : 0 < n) : intText n = natText n.natAbs := if_neg (by omega)

theorem isNat_natText {n : ℕ} (h : 0 < n) : IsNat (natText n) :=
  ⟨natText_ne_nil n,fun _ hc => isDigit_natText hc,fun hz => absurd hz (head_natText h)⟩

theorem parseInt_natText {n : ℕ} (h0 : 0 < n) (h : n < 2 ^ 63) : parseInt (natText n) = some n := by
  have hsign := takeSign_nat (isNat_natText h0) []
  rw [List.append_nil] at hsign
  have hdigits : (natText n).all isDigit = true :=
    List.all_eq_true.mpr (fun c hc => isDigit_natText hc)
  simp only [parseInt,hsign,value_natText,if_true]
  exact if_pos ⟨natText_ne_nil n,hdigits,by omega,by omega⟩

theorem readInt_intText {old : ℤ} (h0 : 0 < n) (h : n < 2 ^ 63) :
    readInt old (.number (intText n)) = some n := by
  have hparse : parseInt (natText n.natAbs) = some (n.natAbs : ℤ) :=
    parseInt_natText (by omega) (by omega)
  rw [readInt,intText_of_pos h0,hparse,Int.natAbs_of_nonneg h0.le]

/-- The cursors of rows: positive identifiers, and a time in the range of the texts. -/
structure WsMessageCursor.Ok (cursor : WsMessageCursor) : Prop where
  channelID : 0 < cursor.channelID ∧ cursor.channelID < 2 ^ 63
  id : 0 < cursor.id ∧ cursor.id < 2 ^ 63
  nonzero : cursor.createdAt.isZero = false
  text : cursor.createdAt.text ≠ none

theorem plain_append {a b : Bytes} (ha : Plain a) (hb : Plain b) : Plain (a ++ b) :=
  List.forall_mem_append.mpr ⟨ha,hb⟩

theorem plain_cons {c : UInt8} {text : Bytes} (hc : 32 ≤ c ∧ c ≠ 34 ∧ c ≠ 92) (h : Plain text) :
    Plain (c :: text) := List.forall_mem_cons.mpr ⟨hc,h⟩

theorem plain_digits {text : Bytes} (h : ∀ c ∈ text, isDigit c = true) : Plain text := by
  intro c hc
  obtain ⟨hge,hle⟩ := of_decide_eq_true (h c hc)
  have h32 : (32 : UInt8) ≤ 48 := by decide
  refine ⟨UInt8.le_trans h32 hge,?_,?_⟩
  · rintro rfl
    exact absurd hge (by decide)
  · rintro rfl
    exact absurd hle (by decide)

theorem plain_fixed (width n : ℕ) : Plain (fixed width n) := plain_digits (fun _ hc => isDigit_fixed hc)

theorem plain_fractionText (n : ℕ) : Plain (fractionText n) := by
  unfold fractionText
  split
  · nofun
  · apply plain_cons (by decide)
    exact plain_digits (fun c hc => isDigit_fixed ((List.rdropWhile_prefix isZero _).subset hc))

theorem plain_zoneText (offset : ℤ) : Plain (zoneText offset) := by
  have htail : Plain (fixed 2 (offset.natAbs / 60) ++ 58 :: fixed 2 (offset.natAbs % 60)) :=
    plain_append (plain_fixed _ _) (plain_cons (by decide) (plain_fixed _ _))
  unfold zoneText
  split
  · exact plain_cons (by decide) nofun
  · split
    · exact plain_cons (by decide) htail
    · exact plain_cons (by decide) htail

theorem plain_timestamp {t : Timestamp} {text : Bytes} (h : t.text = some text) : Plain text := by
  unfold Timestamp.text at h
  split at h
  · cases h
    refine plain_append ?_ (plain_zoneText _)
    refine plain_append (plain_fixed _ _) (plain_cons (by decide) ?_)
    refine plain_append (plain_fixed _ _) (plain_cons (by decide) ?_)
    refine plain_append (plain_fixed _ _) (plain_cons (by decide) ?_)
    refine plain_append (plain_fixed _ _) (plain_cons (by decide) ?_)
    refine plain_append (plain_fixed _ _) (plain_cons (by decide) ?_)
    exact plain_append (plain_fixed _ _) (plain_fractionText _)
  · cases h

theorem unmarshal_marshal {text : Bytes} (hok : cursor.Ok) (h : marshal cursor = some text) :
    unmarshal text = some cursor := by
  obtain ⟨createdAt,ht,rfl⟩ := Option.map_eq_some_iff.mp h
  have hnat : ∀ {n : ℤ}, 0 < n → IsNat (intText n) := by
    intro n hn
    rw [intText_of_pos hn]
    exact isNat_natText (by omega)
  have hms : ∀ m ∈ [(ascii "channel_id",Scalar.number (intText cursor.channelID)),
      (ascii "created_at",Scalar.string createdAt),(ascii "id",Scalar.number (intText cursor.id))],
      Plain m.1 ∧ m.2.Ok := by
    have hname : ∀ name ∈ ["channel_id","created_at","id"], Plain (ascii name) := by
      have hall : ∀ name ∈ ["channel_id","created_at","id"],
          (ascii name).all (fun c => decide (32 ≤ c ∧ c ≠ 34 ∧ c ≠ 92)) = true := by decide
      intro name hname c hc
      exact of_decide_eq_true (List.all_eq_true.mp (hall name hname) c hc)
    intro m hm
    simp only [List.mem_cons,List.not_mem_nil,or_false] at hm
    rcases hm with rfl | rfl | rfl
    · exact ⟨hname _ (by decide),hnat hok.channelID.1⟩
    · exact ⟨hname _ (by decide),plain_timestamp ht⟩
    · exact ⟨hname _ (by decide),hnat hok.id.1⟩
  have hkey : isKey (ascii "channel_id") "channel_id" = true ∧
      isKey (ascii "created_at") "channel_id" = false ∧
      isKey (ascii "created_at") "created_at" = true ∧ isKey (ascii "id") "channel_id" = false ∧
      isKey (ascii "id") "created_at" = false ∧ isKey (ascii "id") "id" = true := by decide
  obtain ⟨h1,h2,h3,h4,h5,h6⟩ := hkey
  have hchannel : setField .zero (ascii "channel_id",.number (intText cursor.channelID)) =
      some ⟨cursor.channelID,.zero,0⟩ := by
    simp only [setField,h1,if_true,readInt_intText hok.channelID.1 hok.channelID.2]
    rfl
  have htime : setField ⟨cursor.channelID,.zero,0⟩ (ascii "created_at",.string createdAt) =
      some ⟨cursor.channelID,cursor.createdAt,0⟩ := by
    simp only [setField,h2,h3,Bool.false_eq_true,if_false,if_true,readTimestamp,
      Rfc3339.parse_text ht]
    rfl
  have hid : setField ⟨cursor.channelID,cursor.createdAt,0⟩
      (ascii "id",.number (intText cursor.id)) = some cursor := by
    simp only [setField,h4,h5,h6,Bool.false_eq_true,if_false,if_true,
      readInt_intText hok.id.1 hok.id.2]
    rfl
  rw [unmarshal,parse_objectText hms (List.cons_ne_nil _ _)]
  simp only [List.map_cons,List.map_nil,Scalar.json,List.foldlM_cons,List.foldlM_nil,hchannel,
    htime,hid,Option.bind_eq_bind,Option.bind_some]
  rfl

theorem decode_encodeWsMessageCursor (hok : cursor.Ok) :
    ∃ raw, encodeWsMessageCursor cursor = some raw ∧ raw ≠ [] ∧
      decodeWsMessageCursor raw = some (some cursor) := by
  obtain ⟨createdAt,ht⟩ := Option.ne_none_iff_exists'.mp hok.text
  obtain ⟨text,hm⟩ : ∃ text, marshal cursor = some text := ⟨_,by rw [marshal,ht]; rfl⟩
  have hraw : Base64.encode text ≠ [] := by
    intro he
    have hd := Base64.decode_encode text
    rw [he] at hd
    cases hd
    have hu := unmarshal_marshal hok hm
    cases hu
  refine ⟨Base64.encode text,by rw [encodeWsMessageCursor,hm]; rfl,hraw,?_⟩
  rw [decodeWsMessageCursor,if_neg hraw,Base64.decode_encode,Option.bind_some,
    unmarshal_marshal hok hm,Option.bind_some,if_neg]
  rintro (hc | hi | hz)
  · exact absurd hok.channelID.1 (not_lt.mpr hc)
  · exact absurd hok.id.1 (not_lt.mpr hi)
  · rw [hok.nonzero] at hz
    cases hz

end MiniDiscord.MessageHistory
