import MiniDiscord.Encoding.Layouts

/-! # What a VP8 packet holds

RFC 7741 §4.2 puts a descriptor in front of a packet's share of a VP8 frame. The bits of an
octet are numbered as there, from the highest one.

           0 1 2 3 4 5 6 7
          |X|R|N|S|R| PID |
    X:    |I|L|T|K|  RSV  |
    I:    |M|  PictureID  |
    M:    |   PictureID   |
    L:    |   TL0PICIDX   |
    T, K: |TID|Y| KEYIDX  |
-/
namespace MiniDiscord.Vp8
open Layouts

abbrev Octet := BitVec 8

structure PictureID where
  first : Octet
  second : Field (first.getMsbD 0) Octet

structure Extension where
  control : Octet
  pictureID : Field (control.getMsbD 0) PictureID
  tl0PicIdx : Field (control.getMsbD 1) Octet
  tidKeyIdx : Field (control.getMsbD 2 || control.getMsbD 3) Octet

structure PayloadDescriptor where
  required : Octet
  extension : Field (required.getMsbD 0) Extension

namespace PayloadDescriptor

/-- S: the packet is the first one of a partition. -/
def start (d : PayloadDescriptor) : Bool := d.required.getMsbD 3

/-- PID: the partition the packet belongs to. -/
def partitionIndex (d : PayloadDescriptor) : BitVec 3 := d.required.extractLsb' 0 3

end PayloadDescriptor

open Layout

def pictureID : Layout Octet PictureID :=
  (one.andThen fun first => one.present (first.getMsbD 0)).ofEquiv
    { toFun p := ⟨p.1,p.2⟩
      invFun v := ⟨v.first,v.second⟩
      left_inv _ := rfl
      right_inv _ := rfl }

def extension : Layout Octet Extension :=
  (one.andThen fun control =>
    (pictureID.present (control.getMsbD 0)).andThen fun _ =>
      (one.present (control.getMsbD 1)).andThen fun _ =>
        one.present (control.getMsbD 2 || control.getMsbD 3)).ofEquiv
    { toFun p := ⟨p.1,p.2.1,p.2.2.1,p.2.2.2⟩
      invFun v := ⟨v.control,v.pictureID,v.tl0PicIdx,v.tidKeyIdx⟩
      left_inv _ := rfl
      right_inv _ := rfl }

def payloadDescriptor : Layout Octet PayloadDescriptor :=
  (one.andThen fun required => extension.present (required.getMsbD 0)).ofEquiv
    { toFun p := ⟨p.1,p.2⟩
      invFun v := ⟨v.required,v.extension⟩
      left_inv _ := rfl
      right_inv _ := rfl }

/-- The first octet of the frame tag in RFC 6386 §9.1: its last bit is clear for a key frame. -/
def keyFrame (frameTag : Octet) : Bool := !frameTag.getMsbD 7

/-- The packet is the start of the first partition of a key frame. -/
def startsKeyFrame (payload : List Octet) : Bool :=
  match payloadDescriptor.read payload with
  | some (d,frameTag :: _) => d.start && d.partitionIndex == 0 && keyFrame frameTag
  | _ => false

theorem startsKeyFrame_iff {payload : List Octet} :
    startsKeyFrame payload = true ↔ ∃ d frameTag rest,
      payloadDescriptor.read payload = some (d,frameTag :: rest) ∧
        d.start = true ∧ d.partitionIndex = 0 ∧ keyFrame frameTag = true := by
  constructor
  · intro h
    unfold startsKeyFrame at h
    split at h
    · rename_i d frameTag rest hread
      simp only [Bool.and_eq_true,beq_iff_eq] at h
      exact ⟨d,frameTag,rest,hread,h.1.1,h.1.2,h.2⟩
    · cases h
  · rintro ⟨d,frameTag,rest,hread,hs,hp,hk⟩
    simp only [startsKeyFrame,hread,hs,hp,hk]
    rfl

/-- A packet that ends in or right after its descriptor starts nothing. -/
theorem startsKeyFrame_take (d : PayloadDescriptor) (n : ℕ) :
    startsKeyFrame ((payloadDescriptor.write d).take n) = false := by
  unfold startsKeyFrame
  by_cases hn : n < (payloadDescriptor.write d).length
  · rw [payloadDescriptor.read_take hn]
  · rw [List.take_of_length_le (by omega)]
    have hread := payloadDescriptor.read_write d []
    rw [List.append_nil] at hread
    rw [hread]

section Rest
variable (first : Octet) (text : List Octet)

theorem rest_pictureID : pictureID.rest (first :: text) =
    if first.getMsbD 0 then one.rest text else some text := by
  rw [pictureID,rest_ofEquiv,rest_andThen]
  exact rest_present _ _ _

theorem rest_extension : extension.rest (first :: text) =
    (if first.getMsbD 0 then pictureID.rest text else some text).bind fun text =>
      (if first.getMsbD 1 then one.rest text else some text).bind fun text =>
        if first.getMsbD 2 || first.getMsbD 3 then one.rest text else some text := by
  rw [extension,rest_ofEquiv,rest_andThen,read_one_cons,Option.bind_some]
  rw [rest_andThen_of_rest (fun _ => rest_andThen_of_rest (fun _ => rest_present _ _))]
  simp only [rest_present]

theorem rest_payloadDescriptor : payloadDescriptor.rest (first :: text) =
    if first.getMsbD 0 then extension.rest text else some text := by
  rw [payloadDescriptor,rest_ofEquiv,rest_andThen]
  exact rest_present _ _ _

/-- The octet after the extension: past the picture id, each of two more fields is one octet. -/
theorem getElem?_rest_extension (n : ℕ) :
    ((extension.rest (first :: text)).bind fun text => text[n]?) =
      (if first.getMsbD 0 then pictureID.rest text else some text).bind fun text =>
        text[(first.getMsbD 1).toNat + ((first.getMsbD 2 || first.getMsbD 3).toNat + n)]? := by
  simp only [rest_extension,Option.bind_assoc,getElem?_rest_one]

/-- The octet after the descriptor says the rest, once the first one says what starts. -/
theorem startsKeyFrame_cons : startsKeyFrame (first :: text) =
    (first.getMsbD 3 && first.extractLsb' 0 3 == 0 &&
      ((payloadDescriptor.rest (first :: text)).bind fun text => text[0]?).any keyFrame) := by
  unfold startsKeyFrame Layout.rest
  cases hread : payloadDescriptor.read (first :: text) with
  | none => simp
  | some p =>
    obtain ⟨d,rest⟩ := p
    have hrequired : first = d.required := by
      have h := payloadDescriptor.read_eq_some.mp hread
      exact (List.cons.inj h).1
    cases rest with
    | nil => simp
    | cons frameTag rest =>
      rw [hrequired]
      rfl

end Rest
end MiniDiscord.Vp8
