import MiniDiscord.Links.Rendering

/-! # White space cuts a message

No token reaches over white space, so a message is shown as what stands before the white
space and what stands behind it are.
-/
namespace MiniDiscord.Links
open Matches

section Lists
variable {α : Type*} {c : α} {p word : List α} {keep : α → Bool}

theorem prefix_cut (hc : c ∉ p) (rest : List α) : p <+: word ++ c :: rest ↔ p <+: word := by
  induction p generalizing word with
  | nil => simp
  | cons d p ih =>
    rw [List.mem_cons,not_or] at hc
    cases word with
    | nil =>
      rw [List.nil_append,List.cons_prefix_cons,List.prefix_nil]
      exact iff_of_false (fun h => hc.1 h.1.symm) (List.cons_ne_nil _ _)
    | cons e word => rw [List.cons_append,List.cons_prefix_cons,List.cons_prefix_cons,ih hc.2]

theorem takeWhile_cut (hc : keep c = false) (rest : List α) :
    (word ++ c :: rest).takeWhile keep = word.takeWhile keep := by
  induction word with
  | nil => rw [List.nil_append,List.takeWhile_cons,hc,if_neg Bool.false_ne_true,List.takeWhile_nil]
  | cons d word ih => rw [List.cons_append,List.takeWhile_cons,List.takeWhile_cons,ih]

end Lists

variable {u : UInt16} {word rest rest' : Text}

/-- What white space is not. -/
theorem not_jsSpace : ∀ v : UInt16, v ∈ mentionOpening ∨ v ∈ everyone ∨ v = 0x3E ∨ digit v = true →
    jsSpace v.toNat = false := by
  rintro v (h | h | rfl | h)
  · simp only [mentionOpening,List.mem_cons,List.not_mem_nil,or_false] at h
    rcases h with rfl | rfl <;> decide
  · simp only [everyone,List.mem_cons,List.not_mem_nil,or_false] at h
    rcases h with rfl | rfl | rfl | rfl | rfl | rfl | rfl | rfl | rfl <;> decide
  · decide
  · have hd : 0x30 ≤ v.toNat ∧ v.toNat ≤ 0x39 := of_decide_eq_true h
    have hall : ∀ n ≤ 0x39, 0x30 ≤ n → jsSpace n = false := by decide
    exact hall v.toNat hd.2 hd.1

theorem ne_of_jsSpace (hu : jsSpace u.toNat = true) {v : UInt16} (hv : jsSpace v.toNat = false) :
    u ≠ v := by
  rintro rfl
  rw [hu] at hv
  cases hv

theorem mentionLength_cut (hu : jsSpace u.toNat = true) :
    mentionLength (word ++ u :: rest) = mentionLength (word ++ [u]) := by
  have hopen : u ∉ mentionOpening := fun h => ne_of_jsSpace hu (not_jsSpace u (.inl h)) rfl
  have hdigit : digit u = false := by
    by_contra h
    exact ne_of_jsSpace hu (not_jsSpace u (.inr (.inr (.inr (by simpa using h))))) rfl
  by_cases hpre : mentionOpening <+: word
  · obtain ⟨w,rfl⟩ := hpre
    have hdrop : ∀ z : Text, (mentionOpening ++ w ++ u :: z).drop 2 = w ++ u :: z := fun _ => rfl
    have hdigits : ∀ z : Text, mentionDigits (mentionOpening ++ w ++ u :: z) = w.takeWhile digit := by
      intro z
      rw [mentionDigits,hdrop,takeWhile_cut hdigit]
    have hnext : ∀ z : Text, ((mentionOpening ++ w ++ u :: z).drop
        (2 + (w.takeWhile digit).length)).head? = (w.drop (w.takeWhile digit).length).head?.or u := by
      intro z
      rw [← List.drop_drop,hdrop,List.drop_append_of_le_length (List.takeWhile_prefix _).length_le,
        List.head?_append,List.head?_cons]
    simp only [mentionLength,hdigits,hnext,prefix_cut hopen]
  · have hnone : ∀ z : Text, mentionLength (word ++ u :: z) = 0 := by
      intro z
      rw [mentionLength,if_neg (fun h => hpre ((prefix_cut hopen z).mp h.1))]
    rw [hnone,hnone]

theorem everyoneLength_cut (hu : jsSpace u.toNat = true) :
    everyoneLength (word ++ u :: rest) = everyoneLength (word ++ [u]) := by
  have hev : u ∉ everyone := fun h => ne_of_jsSpace hu (not_jsSpace u (.inr (.inl h))) rfl
  simp only [everyoneLength,prefix_cut hev]

theorem linkPattern_cut (hu : jsSpace u.toNat = true) :
    linkPattern.len (word ++ u :: rest) = linkPattern.len (word ++ [u]) := by
  let inside : UInt16 → Bool := fun v => inUrl jsSpace v.toNat
  have hin : inside u = false := by
    change inUrl jsSpace u.toNat = false
    rw [inUrl,hu]
    rfl
  have hscheme : ∀ z : Text, schemeLength ((word ++ u :: z).map UInt16.toNat) =
      schemeLength (word.map UInt16.toNat) := by
    intro z
    refine schemeLength_congr (fun scheme hs => ?_)
    rw [List.map_append,List.map_cons]
    refine prefix_cut (fun hm => ?_) _
    have hall : ∀ scheme ∈ schemes, ∀ n ∈ scheme, jsSpace n = false := by decide
    rw [hall scheme hs _ hm] at hu
    cases hu
  have hle : schemeLength (word.map UInt16.toNat) ≤ word.length := by
    simpa using schemeLength_le (word.map UInt16.toNat)
  have hrest : ∀ z : Text, urlRest UInt16.toNat jsSpace (word ++ u :: z) =
      urlRest UInt16.toNat jsSpace word := by
    intro z
    rw [urlRest,hscheme,List.drop_append_of_le_length hle,urlRest]
    exact takeWhile_cut hin z
  have hlen : ∀ z : Text, linkPattern.len (word ++ u :: z) = linkPattern.len word := by
    intro z
    change urlLength _ _ _ = urlLength _ _ _
    rw [urlLength,hscheme,hrest,urlLength]
  rw [hlen,hlen]

/-- No token reaches over white space. -/
theorem tokenPattern_cut (hu : jsSpace u.toNat = true) :
    tokenPattern.len (word ++ u :: rest) = tokenPattern.len (word ++ [u]) := by
  change tokenLength _ = tokenLength _
  rw [tokenLength,mentionLength_cut hu,everyoneLength_cut hu,linkPattern_cut hu,tokenLength]

/-- A text that is empty or ends with white space. -/
def Cut (text : Text) : Prop := ∀ u ∈ text.getLast?, jsSpace u.toNat = true

theorem findAll_cut {front : Text} (h : Cut front) (rest : Text) :
    findAll tokenPattern (front ++ rest) = findAll tokenPattern front ++ findAll tokenPattern rest := by
  refine findAll_append (fun j hj => ?_)
  obtain ⟨word,u,hfront⟩ : ∃ word u, front.drop j = word ++ [u] := by
    have hne : front.drop j ≠ [] := by
      rw [Ne,List.drop_eq_nil_iff,not_le]
      exact hj
    exact ⟨_,_,(List.dropLast_append_getLast hne).symm⟩
  have hu : jsSpace u.toNat = true := by
    refine h u ?_
    rw [← List.take_append_drop j front,hfront,← List.append_assoc,List.getLast?_concat]
    rfl
  rw [List.drop_append_of_le_length hj.le,hfront,List.append_assoc,List.singleton_append,
    tokenPattern_cut hu]

section Nodes
variable {Number : Type*} (number : Text → Number) (decimal : Number → Text)
  (membersById : Number → Option (ServerMember Number))

/-- The nodes of a message that are no plain text. -/
def tokenNodes (parts : List Part) : List Node :=
  parts.filterMap fun part =>
    match part.node with
    | .fragment _ => none
    | node => some node

variable {number decimal membersById} {content : Text} {s s' : Scan}

theorem tokenNodes_append (parts parts' : List Part) :
    tokenNodes (parts ++ parts') = tokenNodes parts ++ tokenNodes parts' := List.filterMap_append

theorem tokenNodes_fragment (s : Scan) (i : ℕ) (text : Text) :
    tokenNodes (fragmentUpTo s i text) = [] := by
  rw [fragmentUpTo]
  split <;> rfl

theorem tokenNodes_node (i : ℕ) (token : Text) :
    tokenNodes [⟨i,tokenNode number decimal membersById token⟩] =
      [tokenNode number decimal membersById token] := by
  unfold tokenNode
  split
  · rfl
  · split <;> rfl

/-- A turn of the loop shows the first of the tokens that are left. -/
theorem tokenNodes_step (h : scanStep number decimal membersById content s = some s') :
    tokenNodes s'.parts ++ (findAll tokenPattern (content.drop s'.regexIndex)).map
        (tokenNode number decimal membersById) =
      tokenNodes s.parts ++ (findAll tokenPattern (content.drop s.regexIndex)).map
        (tokenNode number decimal membersById) := by
  rw [scanStep,Option.map_eq_some_iff] at h
  obtain ⟨found,hexec,rfl⟩ := h
  rw [exec,Option.map_eq_some_iff] at hexec
  obtain ⟨⟨i,n⟩,hfirst,rfl⟩ := hexec
  obtain ⟨hbefore,rfl,hpos⟩ := firstMatch_eq_some hfirst
  rw [findAll_drop i _ hbefore,findAll_match hpos,List.map_cons,List.drop_drop,List.drop_drop]
  simp only [pushToken,tokenNodes_append,tokenNodes_fragment,tokenNodes_node,List.nil_append,
    List.append_assoc,List.singleton_append]

theorem tokenNodes_loop {fuel : ℕ}
    (h : scanLoop number decimal membersById content fuel s = some s') :
    tokenNodes s'.parts = tokenNodes s.parts ++
      (findAll tokenPattern (content.drop s.regexIndex)).map
        (tokenNode number decimal membersById) := by
  induction fuel generalizing s with
  | zero => cases h
  | succ fuel ih =>
    rw [scanLoop] at h
    cases hstep : scanStep number decimal membersById content s with
    | none =>
      rw [hstep] at h
      obtain rfl := Option.some.inj h
      have hnone : findAll tokenPattern (content.drop s.regexIndex) = [] := by
        rw [findAll_drop (content.drop s.regexIndex).length,List.drop_length]
        · exact findAll_nil _
        · intro j _
          rw [List.drop_drop]
          exact scanStep_none hstep j
      rw [hnone,List.map_nil,List.append_nil]
    | some next =>
      rw [hstep] at h
      rw [ih h]
      exact tokenNodes_step hstep

variable (number decimal membersById) in
/-- What the client shows of a message besides plain text. -/
def shownTokens (content : Text) : List Node :=
  tokenNodes ((renderMessageContent number decimal membersById content).getD [])

/-- These are the tokens of the message, in order. -/
theorem shownTokens_eq (content : Text) :
    shownTokens number decimal membersById content =
      (findAll tokenPattern content).map (tokenNode number decimal membersById) := by
  obtain ⟨s,hloop,_⟩ := scan_ends number decimal membersById content
  rw [shownTokens,renderMessageContent,hloop,Option.map_some,Option.getD_some,tokenNodes_append,
    tokenNodes_fragment,List.append_nil,tokenNodes_loop hloop]
  rfl

end Nodes
end MiniDiscord.Links
