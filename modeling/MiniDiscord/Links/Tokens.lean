import MiniDiscord.Links.Pattern
import MiniDiscord.Links.UrlTail

/-! # The tokens of a message

The client looks for mentions, `@everyone` and links with one pattern,
`<@(\d+)>|@everyone|https?:\/\/[^\s<>"']+`, on the UTF-16 units of a text.
-/
namespace MiniDiscord.Links
open Matches Trimming

abbrev Text := List UInt16

/-- `\s` of the client, which is also what its `trim` removes. -/
def jsSpace (n : ℕ) : Bool :=
  [0x09,0x0A,0x0B,0x0C,0x0D,0x20,0xA0,0x1680,0x2028,0x2029,0x202F,0x205F,0x3000,0xFEFF].contains n
    || decide (0x2000 ≤ n ∧ n ≤ 0x200A)

/-- `\d`. -/
def digit (u : UInt16) : Bool := decide (0x30 ≤ u.toNat ∧ u.toNat ≤ 0x39)

/-- `<@`. -/
def mentionOpening : Text := [0x3C,0x40]

/-- `@everyone`. -/
def everyone : Text := [0x40,0x65,0x76,0x65,0x72,0x79,0x6F,0x6E,0x65]

/-- The group of `<@(\d+)>`. -/
def mentionDigits (text : Text) : Text := (text.drop 2).takeWhile digit

def mentionLength (text : Text) : ℕ :=
  if mentionOpening <+: text ∧ mentionDigits text ≠ [] ∧
      (text.drop (2 + (mentionDigits text).length)).head? = some 0x3E
  then 2 + (mentionDigits text).length + 1
  else 0

def everyoneLength (text : Text) : ℕ := if everyone <+: text then everyone.length else 0

def linkPattern : Matcher UInt16 := urlMatcher UInt16.toNat jsSpace

/-- The three alternatives in their order. -/
def tokenLength (text : Text) : ℕ :=
  if mentionLength text ≠ 0 then mentionLength text
  else if everyoneLength text ≠ 0 then everyoneLength text
  else linkPattern.len text

variable {text : Text}

theorem mentionLength_spec (h : mentionLength text ≠ 0) :
    mentionOpening <+: text ∧ mentionLength text ≤ text.length ∧
      text.take (mentionLength text) = mentionOpening ++ mentionDigits text ++ [0x3E] := by
  rw [mentionLength] at h ⊢
  split at h
  · rename_i hcases
    obtain ⟨hopen,hdigits,hclose⟩ := hcases
    rw [if_pos ⟨hopen,hdigits,hclose⟩]
    have htake : text.take 2 = mentionOpening := (List.prefix_iff_eq_take.mp hopen).symm
    have hrun : (text.drop 2).take (mentionDigits text).length = mentionDigits text :=
      (List.prefix_iff_eq_take.mp (List.takeWhile_prefix _)).symm
    rw [List.head?_drop] at hclose
    have hlt := (List.getElem?_eq_some_iff.mp hclose).1
    refine ⟨hopen,hlt,?_⟩
    rw [List.take_add_one,List.take_add,htake,hrun,hclose,Option.toList_some]
  · exact absurd rfl h

theorem everyoneLength_spec (h : everyoneLength text ≠ 0) :
    everyoneLength text ≤ text.length ∧ text.take (everyoneLength text) = everyone := by
  rw [everyoneLength] at h ⊢
  split at h
  · rename_i hpre
    rw [if_pos hpre]
    exact ⟨hpre.length_le,(List.prefix_iff_eq_take.mp hpre).symm⟩
  · exact absurd rfl h

/-- `TOKEN_PATTERN`. -/
def tokenPattern : Matcher UInt16 where
  len := tokenLength
  le := by
    intro text
    rw [tokenLength]
    split
    · rename_i h
      exact (mentionLength_spec h).2.1
    · split
      · rename_i h
        exact (everyoneLength_spec h).1
      · exact linkPattern.le text

/-- A match of the pattern is one of the three kinds. -/
inductive Kind (text : Text) : Prop
  | mention (h : mentionLength text ≠ 0) (hlen : tokenPattern.len text = mentionLength text)
  | everyone (h : everyoneLength text ≠ 0) (hlen : tokenPattern.len text = everyoneLength text)
  | link (h : linkPattern.len text ≠ 0) (hlen : tokenPattern.len text = linkPattern.len text)

theorem kind_of_token (h : tokenPattern.len text ≠ 0) : Kind text := by
  have heq : tokenPattern.len text = tokenLength text := rfl
  rw [tokenLength] at heq
  split at heq
  · rename_i hmention
    exact .mention hmention heq
  · split at heq
    · rename_i heveryone
      exact .everyone heveryone heq
    · exact .link (heq ▸ h) heq

theorem linkPattern_of_no_token (h : tokenPattern.len text = 0) : linkPattern.len text = 0 := by
  have heq : tokenPattern.len text = tokenLength text := rfl
  rw [tokenLength] at heq
  split at heq
  · rename_i hmention
    exact absurd (heq.symm.trans h) hmention
  · split at heq
    · rename_i heveryone
      exact absurd (heq.symm.trans h) heveryone
    · exact heq.symm.trans h

/-- A link begins with `h`. -/
theorem head_of_link (h : linkPattern.len text ≠ 0) : ∃ rest, text = 0x68 :: rest := by
  cases text with
  | nil => exact absurd linkPattern.len_nil h
  | cons u rest =>
    refine ⟨rest,?_⟩
    by_cases hu : u.toNat = 0x68
    · rw [← UInt16.toNat_inj.mp (show u.toNat = (0x68 : UInt16).toNat from hu)]
    · have hscheme := (urlMatcher_spec h).1
      rw [List.map_cons,schemeLength_cons _ hu] at hscheme
      exact absurd rfl hscheme

theorem linkPattern_cons {u : UInt16} (h : u ≠ 0x68) (rest : Text) :
    linkPattern.len (u :: rest) = 0 := by
  by_contra hne
  obtain ⟨rest',heq⟩ := head_of_link hne
  exact h (List.cons.inj heq).1

/-! ## What a token is shown as -/

/-- The fields of a member that its display name is made of. -/
structure ServerMember (Number : Type*) where
  user_id : Number
  nickname : Option Text
  first_name : Option Text
  last_name : Option Text

/-- `String.prototype.trim`. -/
def trim (text : Text) : Text :=
  (text.dropWhile fun u => jsSpace u.toNat).rdropWhile fun u => jsSpace u.toNat

inductive Node
  | fragment (text : Text)
  | everyone
  | mention (token label : Text)
  | link (href : Text)

/-- The text of a message that a node stands for. -/
def Node.source : Node → Text
  | .fragment text => text
  | .everyone => Links.everyone
  | .mention token _ => token
  | .link href => href

section
variable {Number : Type*} (number : Text → Number) (decimal : Number → Text)

def memberDisplayName (member : ServerMember Number) : Text :=
  let nickname := trim (member.nickname.getD [])
  let fullName := trim (member.first_name.getD [] ++ [0x20] ++ member.last_name.getD [])
  if nickname ≠ [] then nickname
  else if fullName ≠ [] then fullName
  else [0x55,0x73,0x65,0x72,0x20] ++ decimal member.user_id

/-- The name of a member, or `user` and the id. -/
def mentionLabel (membersById : Number → Option (ServerMember Number)) (token : Text) : Text :=
  let userId := number (mentionDigits token)
  match membersById userId with
  | some member => memberDisplayName decimal member
  | none => [0x75,0x73,0x65,0x72,0x20] ++ decimal userId

def tokenNode (membersById : Number → Option (ServerMember Number)) (token : Text) : Node :=
  if token = everyone then .everyone
  else if mentionOpening <+: token then
    .mention token (mentionLabel number decimal membersById token)
  else .link (trimUrlTail token)

variable {number decimal} {membersById : Number → Option (ServerMember Number)}

theorem trimUrlTail_link (h : linkPattern.len text ≠ 0) :
    trimUrlTail (text.take (linkPattern.len text)) ≠ [] ∧
      trimUrlTail (text.take (linkPattern.len text)) <+: text.take (linkPattern.len text) := by
  obtain ⟨rest,rfl⟩ := head_of_link h
  obtain ⟨n,hn⟩ := Nat.exists_eq_succ_of_ne_zero h
  have hkeep : ∃ kept, trimTail unitIsPunctuation 0x28 0x29 ([] ++ 0x68 :: rest.take n) =
      [] ++ 0x68 :: kept ∧ kept <+: rest.take n :=
    trimTail_keeps (by decide) (by decide) (by decide)
  obtain ⟨kept,hkept,hpre⟩ := hkeep
  rw [List.nil_append,List.nil_append] at hkept
  rw [hn,List.take_succ_cons,trimUrlTail,hkept,List.cons_prefix_cons]
  exact ⟨List.cons_ne_nil _ _,rfl,hpre⟩

/-- The node of a match of the pattern. -/
inductive NodeOf (text : Text) : Node → Prop
  | everyone : text.take (tokenPattern.len text) = Links.everyone → NodeOf text .everyone
  | mention (label : Text) : mentionLength text ≠ 0 →
      tokenPattern.len text = mentionLength text →
      NodeOf text (.mention (text.take (tokenPattern.len text)) label)
  | link : linkPattern.len text ≠ 0 → tokenPattern.len text = linkPattern.len text →
      NodeOf text (.link (trimUrlTail (text.take (linkPattern.len text))))

theorem nodeOf_token (h : tokenPattern.len text ≠ 0) :
    NodeOf text (tokenNode number decimal membersById (text.take (tokenPattern.len text))) := by
  cases kind_of_token h with
  | mention hmention hlen =>
    obtain ⟨-,-,htoken⟩ := mentionLength_spec hmention
    have hne : text.take (mentionLength text) ≠ everyone := by
      rw [htoken]
      exact fun heq => absurd (List.cons.inj heq).1 (by decide)
    have hopen : mentionOpening <+: text.take (mentionLength text) := by
      rw [htoken,List.append_assoc]
      exact List.prefix_append _ _
    rw [tokenNode,hlen,if_neg hne,if_pos hopen,← hlen]
    exact .mention _ hmention hlen
  | everyone heveryone hlen =>
    have htoken : text.take (tokenPattern.len text) = everyone := by
      rw [hlen]
      exact (everyoneLength_spec heveryone).2
    rw [tokenNode,if_pos htoken]
    exact .everyone htoken
  | link hlink hlen =>
    obtain ⟨rest,hrest⟩ := head_of_link hlink
    obtain ⟨n,hn⟩ := Nat.exists_eq_succ_of_ne_zero hlink
    have htoken : text.take (linkPattern.len text) = 0x68 :: rest.take n := by
      rw [hn,hrest,List.take_succ_cons]
    have hne : text.take (linkPattern.len text) ≠ everyone := by
      rw [htoken]
      exact fun heq => absurd (List.cons.inj heq).1 (by decide)
    have hopen : ¬ mentionOpening <+: text.take (linkPattern.len text) := by
      rw [htoken,mentionOpening,List.cons_prefix_cons]
      rintro ⟨hhead,-⟩
      exact absurd hhead (by decide)
    rw [tokenNode,hlen,if_neg hne,if_neg hopen]
    exact .link hlink hlen

/-- A node stands for some of the token at least, from its start. -/
theorem nodeOf_source {node : Node} (h : tokenPattern.len text ≠ 0) (hnode : NodeOf text node) :
    node.source ≠ [] ∧ node.source <+: text.take (tokenPattern.len text) := by
  have hne : text.take (tokenPattern.len text) ≠ [] := by
    rw [Ne,List.take_eq_nil_iff]
    rintro (hzero | rfl)
    · exact h hzero
    · exact h tokenPattern.len_nil
  cases hnode with
  | everyone htoken =>
    rw [htoken]
    exact ⟨by decide,List.prefix_refl _⟩
  | mention label _ _ => exact ⟨hne,List.prefix_refl _⟩
  | link hlink hlen =>
    rw [hlen]
    exact trimUrlTail_link hlink

end
end MiniDiscord.Links
