import MiniDiscord.Links.Tokens

/-! # Rendering a message

The loop that cuts a message into nodes. The pattern keeps its own place behind the last match,
while `lastIndex` stays at the end of what has been shown.
-/
namespace MiniDiscord.Links
open Matches

structure Part where
  key : ℕ
  node : Node

structure Scan where
  regexIndex : ℕ
  lastIndex : ℕ
  parts : List Part

/-- The plain text between `lastIndex` and a later place, when there is some. -/
def fragmentUpTo (s : Scan) (index : ℕ) (text : Text) : List Part :=
  if s.lastIndex < index then [⟨s.lastIndex,.fragment text⟩] else []

/-- `TOKEN_PATTERN.exec` with its `lastIndex`: where a match starts and how long it is. -/
def exec (content : Text) (regexIndex : ℕ) : Option (ℕ × ℕ) :=
  (firstMatch tokenPattern (content.drop regexIndex)).map fun found =>
    (regexIndex + found.1,found.2)

section
variable {Number : Type*} (number : Text → Number) (decimal : Number → Text)
  (membersById : Number → Option (ServerMember Number))

/-- The body of the loop for a match at `index`. -/
def pushToken (content : Text) (s : Scan) (index length : ℕ) : Scan :=
  let token := (content.drop index).take length
  let before := fragmentUpTo s index ((content.take index).drop s.lastIndex)
  let node := tokenNode number decimal membersById token
  { regexIndex := index + length
    -- A link ends where its address ends, the other tokens where the match does.
    lastIndex := match node with
      | .link href => index + href.length
      | _ => index + token.length
    parts := s.parts ++ before ++ [⟨index,node⟩] }

def scanStep (content : Text) (s : Scan) : Option Scan :=
  (exec content s.regexIndex).map fun found =>
    pushToken number decimal membersById content s found.1 found.2

/-- The loop, which has not ended when the fuel is used up. -/
def scanLoop (content : Text) : ℕ → Scan → Option Scan
  | 0, _ => none
  | fuel + 1, s =>
    match scanStep number decimal membersById content s with
    | none => some s
    | some s' => scanLoop content fuel s'

def renderMessageContent (content : Text) : Option (List Part) :=
  (scanLoop number decimal membersById content (content.length + 1) ⟨0,0,[]⟩).map fun s =>
    s.parts ++ fragmentUpTo s content.length (content.drop s.lastIndex)

end

def sources (parts : List Part) : Text := parts.flatMap fun part => part.node.source

/-- What has been shown is the content up to `lastIndex`, under increasing keys. -/
structure Scanned (content : Text) (s : Scan) : Prop where
  behind : s.lastIndex ≤ s.regexIndex
  inside : s.regexIndex ≤ content.length
  shown : sources s.parts = content.take s.lastIndex
  keys : (s.parts.map Part.key).Pairwise (· < ·)
  below : ∀ part ∈ s.parts, part.key < s.lastIndex

variable {Number : Type*} {number : Text → Number} {decimal : Number → Text}
  {membersById : Number → Option (ServerMember Number)} {content : Text} {s s' : Scan}

/-- `lastIndex` moves to the end of what the node of a match stands for. -/
theorem pushToken_lastIndex {i : ℕ} (hlen : tokenPattern.len (content.drop i) ≠ 0) :
    (pushToken number decimal membersById content s i
      (tokenPattern.len (content.drop i))).lastIndex =
    i + (tokenNode number decimal membersById
      ((content.drop i).take (tokenPattern.len (content.drop i)))).source.length := by
  have hnode : NodeOf (content.drop i) (tokenNode number decimal membersById
      ((content.drop i).take (tokenPattern.len (content.drop i)))) := nodeOf_token hlen
  simp only [pushToken]
  cases hkind : tokenNode number decimal membersById
      ((content.drop i).take (tokenPattern.len (content.drop i))) with
  | link href => rfl
  | fragment text =>
    rw [hkind] at hnode
    cases hnode
  | everyone =>
    rw [hkind] at hnode
    cases hnode with
    | everyone htoken => rw [htoken,Node.source]
  | mention token label =>
    rw [hkind] at hnode
    cases hnode with
    | mention _ _ _ => rw [Node.source]

/-- A step finds the first token behind the regular expression's place and shows what stands
before it and the node of the token. -/
theorem scanStep_cases (h : scanStep number decimal membersById content s = some s') :
    ∃ i node, (∀ j < i, tokenPattern.len (content.drop (s.regexIndex + j)) = 0) ∧
      tokenPattern.len (content.drop (s.regexIndex + i)) ≠ 0 ∧
      NodeOf (content.drop (s.regexIndex + i)) node ∧
      s'.regexIndex = s.regexIndex + i +
        tokenPattern.len (content.drop (s.regexIndex + i)) ∧
      s'.regexIndex ≤ content.length ∧
      s'.lastIndex = s.regexIndex + i + node.source.length ∧
      s'.parts = s.parts ++ fragmentUpTo s (s.regexIndex + i)
        ((content.take (s.regexIndex + i)).drop s.lastIndex) ++ [⟨s.regexIndex + i,node⟩] := by
  rw [scanStep,Option.map_eq_some_iff] at h
  obtain ⟨found,hexec,hpush⟩ := h
  rw [exec,Option.map_eq_some_iff] at hexec
  obtain ⟨⟨i,n⟩,hfirst,hfound⟩ := hexec
  subst hfound
  obtain ⟨hbefore,hn,hpos⟩ := firstMatch_eq_some hfirst
  have hbounds := (firstMatch_bounds hfirst).2
  rw [List.length_drop] at hbounds
  rw [List.drop_drop] at hn
  subst hn
  refine ⟨i,tokenNode number decimal membersById _,?_,hpos,nodeOf_token hpos,?_,?_,?_,?_⟩
  · intro j hj
    rw [← List.drop_drop]
    exact hbefore j hj
  · rw [← hpush]
    rfl
  · rw [← hpush]
    change s.regexIndex + i + tokenPattern.len _ ≤ content.length
    omega
  · rw [← hpush]
    exact pushToken_lastIndex hpos
  · rw [← hpush]
    rfl

theorem scanStep_none (h : scanStep number decimal membersById content s = none) (j : ℕ) :
    tokenPattern.len (content.drop (s.regexIndex + j)) = 0 := by
  rw [scanStep,Option.map_eq_none_iff,exec,Option.map_eq_none_iff] at h
  rw [← List.drop_drop]
  exact firstMatch_eq_none h j

theorem sources_append (parts parts' : List Part) :
    sources (parts ++ parts') = sources parts ++ sources parts' :=
  List.flatMap_append

/-- The text up to a later place takes what has been shown there. -/
theorem Scanned.shown_upTo (hs : Scanned content s) {i : ℕ} (h : s.lastIndex ≤ i) :
    sources (s.parts ++ fragmentUpTo s i ((content.take i).drop s.lastIndex)) =
      content.take i := by
  rw [sources_append,hs.shown,fragmentUpTo]
  split
  · have hsplit := List.take_append_drop s.lastIndex (content.take i)
    rw [List.take_take,Nat.min_eq_left h] at hsplit
    simpa [sources,Node.source] using hsplit
  · have heq : s.lastIndex = i := by omega
    simp [sources,heq]

/-- Two runs of parts with increasing keys, the second behind the first. -/
theorem keys_append {parts : List Part} {part : Part} {i : ℕ}
    (hkeys : (parts.map Part.key).Pairwise (· < ·)) (hbelow : ∀ p ∈ parts, p.key < i)
    (hpart : part.key = i) : ((parts ++ [part]).map Part.key).Pairwise (· < ·) := by
  rw [List.map_append,List.pairwise_append]
  refine ⟨hkeys,by simp,?_⟩
  intro k hk k' hk'
  obtain ⟨p,hp,rfl⟩ := List.mem_map.mp hk
  obtain rfl : k' = part.key := by simpa using hk'
  rw [hpart]
  exact hbelow p hp

theorem Scanned.keys_upTo (hs : Scanned content s) {i : ℕ} (h : s.lastIndex ≤ i) (text : Text) :
    ((s.parts ++ fragmentUpTo s i text).map Part.key).Pairwise (· < ·) ∧
    ∀ part ∈ s.parts ++ fragmentUpTo s i text, part.key < i := by
  rw [fragmentUpTo]
  split
  · rename_i hlt
    refine ⟨keys_append hs.keys hs.below rfl,?_⟩
    intro part hpart
    rcases List.mem_append.mp hpart with hpart | hpart
    · exact lt_of_lt_of_le (hs.below part hpart) h
    · obtain rfl : part = ⟨s.lastIndex,.fragment text⟩ := by simpa using hpart
      exact hlt
  · rw [List.append_nil]
    exact ⟨hs.keys,fun part hpart => lt_of_lt_of_le (hs.below part hpart) h⟩

theorem Scanned.step (hs : Scanned content s)
    (h : scanStep number decimal membersById content s = some s') :
    Scanned content s' ∧ s.regexIndex < s'.regexIndex := by
  obtain ⟨i,node,-,hlen,hnode,hregex,hinside,hlast,hparts⟩ := scanStep_cases h
  obtain ⟨hne,hpre⟩ := nodeOf_source hlen hnode
  have hbehind : s.lastIndex ≤ s.regexIndex + i := hs.behind.trans (Nat.le_add_right _ _)
  have hpos : 0 < node.source.length := List.length_pos_iff.mpr hne
  have hshort := hpre.length_le
  rw [List.length_take] at hshort
  obtain ⟨hkeys,hbelow⟩ := hs.keys_upTo hbehind
    ((content.take (s.regexIndex + i)).drop s.lastIndex)
  refine ⟨⟨by omega,hinside,?_,?_,?_⟩,by omega⟩
  · have hnodeText : node.source = (content.drop (s.regexIndex + i)).take node.source.length :=
      List.prefix_iff_eq_take.mp (hpre.trans (List.take_prefix _ _))
    have hsplit : content.take (s.regexIndex + i + node.source.length) =
        content.take (s.regexIndex + i) ++ node.source := by
      rw [List.take_add,← hnodeText]
    rw [hparts,sources_append,hs.shown_upTo hbehind,hlast,hsplit]
    simp [sources]
  · rw [hparts]
    exact keys_append hkeys hbelow rfl
  · intro part hpart
    rw [hparts] at hpart
    rcases List.mem_append.mp hpart with hpart | hpart
    · have hlt := hbelow part hpart
      omega
    · obtain rfl : part = ⟨s.regexIndex + i,node⟩ := by simpa using hpart
      change s.regexIndex + i < s'.lastIndex
      omega

/-- Every turn moves the pattern forward, so the loop ends within its fuel. -/
theorem scanLoop_ends {fuel : ℕ} (hs : Scanned content s)
    (hfuel : content.length - s.regexIndex < fuel) :
    ∃ s', scanLoop number decimal membersById content fuel s = some s' ∧ Scanned content s' := by
  induction fuel generalizing s with
  | zero => omega
  | succ fuel ih =>
    rw [scanLoop]
    cases hstep : scanStep number decimal membersById content s with
    | none => exact ⟨s,rfl,hs⟩
    | some next =>
      obtain ⟨hnext,hlt⟩ := hs.step hstep
      have hinside := hnext.inside
      exact ih hnext (by omega)

theorem scan_ends (number : Text → Number) (decimal : Number → Text)
    (membersById : Number → Option (ServerMember Number)) (content : Text) :
    ∃ s, scanLoop number decimal membersById content (content.length + 1) ⟨0,0,[]⟩ = some s ∧
      Scanned content s := by
  have hstart : Scanned content ⟨0,0,[]⟩ :=
    ⟨Nat.le_refl 0,Nat.zero_le _,rfl,List.Pairwise.nil,by simp⟩
  exact scanLoop_ends hstart (Nat.lt_succ_self content.length)

/-- A message is rendered, its nodes stand for all of its text, and no key comes twice. -/
theorem render_loses_nothing (number : Text → Number) (decimal : Number → Text)
    (membersById : Number → Option (ServerMember Number)) (content : Text) :
    ∃ parts, renderMessageContent number decimal membersById content = some parts ∧
      sources parts = content ∧ (parts.map Part.key).Nodup := by
  obtain ⟨s,hloop,hs⟩ := scan_ends number decimal membersById content
  have hle : s.lastIndex ≤ content.length := hs.behind.trans hs.inside
  have hshown := hs.shown_upTo hle
  rw [List.take_length] at hshown
  have hkeys := (hs.keys_upTo hle (content.drop s.lastIndex)).1
  refine ⟨s.parts ++ fragmentUpTo s content.length (content.drop s.lastIndex),?_,hshown,?_⟩
  · rw [renderMessageContent,hloop,Option.map_some]
  · exact hkeys.imp (fun hlt => Nat.ne_of_lt hlt)

end MiniDiscord.Links
