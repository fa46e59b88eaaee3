import MiniDiscord.Commands.Messages

/-! # Who a message mentions

What the scan for mentions and the loop over its matches give, without the order of their
checks.
-/
namespace MiniDiscord.ChatHub
open Effects

/-- The digits of a mention that begins where the text does. -/
def mentionAt : List Char → Option (List Char)
  | '<' :: '@' :: rest =>
    let digits := rest.takeWhile Char.isDigit
    if digits ≠ [] ∧ (rest.drop digits.length).head? = some '>' then some digits else none
  | _ => none

/-- The digits of every mention in a text. -/
def mentionsIn (text : List Char) : List (List Char) := text.tails.filterMap mentionAt

/-- The distinct users other than the author and among the recipients that a text mentions, the
first occurrence of each. -/
def mentionedUsers (authorID : UserID) (recipientUserIDs : List UserID) (text : List Char) :
    List UserID :=
  (((mentionsIn text).filterMap atoi).filter fun id =>
    decide (id ∈ recipientUserIDs ∧ id ≠ authorID)).eraseDups

/-! ## The scan -/

@[simp] theorem mentionsIn_nil : mentionsIn [] = [] := rfl

theorem mentionsIn_cons (c : Char) (cs : List Char) :
    mentionsIn (c :: cs) = (mentionAt (c :: cs)).toList ++ mentionsIn cs := by
  rw [mentionsIn,List.tails,List.filterMap_cons,mentionsIn]
  cases mentionAt (c :: cs) <;> rfl

theorem mentionAt_cons {c : Char} (h : c ≠ '<') (cs : List Char) : mentionAt (c :: cs) = none := by
  rw [mentionAt]
  rintro rest hrest
  exact h (List.cons.inj hrest).1

theorem mentionsIn_other {c : Char} (h : c ≠ '<') (cs : List Char) :
    mentionsIn (c :: cs) = mentionsIn cs := by
  rw [mentionsIn_cons,mentionAt_cons h]
  rfl

theorem mentionsIn_digits {digits : List Char} (h : ∀ c ∈ digits, c.isDigit = true)
    (cs : List Char) : mentionsIn (digits ++ cs) = mentionsIn cs := by
  induction digits with
  | nil => rfl
  | cons d digits ih =>
    have hd : d ≠ '<' := by
      rintro rfl
      exact absurd (h '<' List.mem_cons_self) (by decide)
    rw [List.cons_append,mentionsIn_other hd,ih fun c hc => h c (List.mem_cons_of_mem d hc)]

/-- What an opening bracket and `@` begin is decided by what follows the digits. -/
theorem mentionAt_digits {digits : List Char} (h : ∀ c ∈ digits, c.isDigit = true)
    {rest : List Char} (hrest : ∀ c ∈ rest.head?, c.isDigit = false) :
    mentionAt ('<' :: '@' :: (digits ++ rest)) =
      if digits ≠ [] ∧ rest.head? = some '>' then some digits else none := by
  have htake : (digits ++ rest).takeWhile Char.isDigit = digits := by
    rw [List.takeWhile_append_of_pos h]
    cases rest with
    | nil => simp
    | cons c rest => rw [List.takeWhile_cons,hrest c rfl,if_neg Bool.false_ne_true,List.append_nil]
  simp only [mentionAt,htake,List.drop_left]

theorem mentionsIn_opened {digits : List Char} (h : ∀ c ∈ digits, c.isDigit = true)
    {rest : List Char} (hrest : ∀ c ∈ rest.head?, c.isDigit = false) :
    mentionsIn ('<' :: '@' :: (digits ++ rest)) =
      (if digits ≠ [] ∧ rest.head? = some '>' then [digits] else []) ++ mentionsIn rest := by
  rw [mentionsIn_cons,mentionAt_digits h hrest,mentionsIn_other (by decide),mentionsIn_digits h]
  split <;> rfl

/-- What a scan has read of a mention so far. -/
def MentionScan.read : MentionScan → List Char
  | .outside => []
  | .opened => ['<']
  | .digits seen => '<' :: '@' :: seen

def MentionScan.Digits : MentionScan → Prop
  | .digits seen => ∀ c ∈ seen, c.isDigit = true
  | _ => True

theorem mentionTokens_restart {c : Char} {cs : List Char}
    (ih : ∀ scan : MentionScan, scan.Digits → mentionTokens scan cs = mentionsIn (scan.read ++ cs)) :
    mentionTokens (if c = '<' then .opened else .outside) cs = mentionsIn (c :: cs) := by
  by_cases hc : c = '<'
  · subst hc
    rw [if_pos rfl]
    exact ih .opened trivial
  · rw [if_neg hc,mentionsIn_other hc]
    exact ih .outside trivial

/-- In every state the scan gives the mentions of what it has read and what is left. -/
theorem mentionTokens_eq (scan : MentionScan) (cs : List Char) (h : scan.Digits) :
    mentionTokens scan cs = mentionsIn (scan.read ++ cs) := by
  induction cs generalizing scan with
  | nil =>
    cases scan with
    | outside => rfl
    | opened => rfl
    | digits seen =>
      rw [mentionTokens,MentionScan.read,List.cons_append,List.cons_append,
        mentionsIn_opened h (by simp),if_neg (by simp)]
      rfl
  | cons c cs ih =>
    cases scan with
    | outside =>
      rw [mentionTokens]
      exact mentionTokens_restart (fun scan hscan => ih scan hscan)
    | opened =>
      rw [mentionTokens]
      by_cases hat : c = '@'
      · subst hat
        rw [if_pos rfl]
        exact ih (.digits []) (by simp [MentionScan.Digits])
      · have hnone : mentionAt ('<' :: c :: cs) = none := by
          rw [mentionAt]
          rintro rest hrest
          exact hat (List.cons.inj (List.cons.inj hrest).2).1
        rw [if_neg hat,MentionScan.read,List.singleton_append,mentionsIn_cons,hnone]
        exact mentionTokens_restart (fun scan hscan => ih scan hscan)
    | digits seen =>
      rw [mentionTokens]
      by_cases hdigit : c.isDigit = true
      · have hseen : ∀ d ∈ seen ++ [c], d.isDigit = true := by
          intro d hd
          rcases List.mem_append.mp hd with hd | hd
          · exact h d hd
          · obtain rfl : d = c := by simpa using hd
            exact hdigit
        have hnext := ih (.digits (seen ++ [c])) hseen
        rw [if_pos hdigit,hnext]
        simp [MentionScan.read]
      · have hhead : ∀ d ∈ (c :: cs).head?, d.isDigit = false := by
          intro d hd
          cases hd
          simpa using hdigit
        rw [if_neg hdigit,MentionScan.read,List.cons_append,List.cons_append,
          mentionsIn_opened h hhead]
        by_cases hclose : c = '>' ∧ seen ≠ []
        · obtain ⟨rfl,hne⟩ := hclose
          rw [if_pos ⟨rfl,hne⟩,if_pos ⟨hne,rfl⟩,mentionsIn_other (by decide)]
          exact congrArg (seen :: ·) (ih .outside trivial)
        · have hopen : ¬ (seen ≠ [] ∧ (c :: cs).head? = some '>') := by
            rintro ⟨hne,hhead⟩
            exact hclose ⟨Option.some.inj hhead,hne⟩
          rw [if_neg hclose,if_neg hopen]
          exact mentionTokens_restart (fun scan hscan => ih scan hscan)

/-! ## The loop -/

/-- The users that are still to be found behind a new one are those that differ from it. -/
theorem filter_found (authorID id : UserID) (recipientUserIDs mentioned ids : List UserID) :
    (ids.filter fun other =>
      decide (other ∈ recipientUserIDs ∧ other ≠ authorID ∧ other ∉ mentioned ++ [id])) =
      (ids.filter fun other =>
        decide (other ∈ recipientUserIDs ∧ other ≠ authorID ∧ other ∉ mentioned)).filter
          fun other => !other == id := by
  rw [List.filter_filter]
  apply List.filter_congr
  intro other _
  rw [Bool.eq_iff_iff]
  simp only [List.mem_append,List.mem_singleton,decide_eq_true_iff,Bool.and_eq_true,
    Bool.not_eq_true',beq_eq_false_iff_ne,not_or]
  constructor
  · rintro ⟨hmember,hauthor,hnew,hne⟩
    exact ⟨hne,hmember,hauthor,hnew⟩
  · rintro ⟨hne,hmember,hauthor,hnew⟩
    exact ⟨hmember,hauthor,hnew,hne⟩

/-- The loop takes what is missing to the cap from the first occurrences of the users that it
has not found yet. -/
theorem collectMentions_eq (authorID : UserID) (recipientUserIDs : List UserID)
    (tokens : List (List Char)) (mentioned : List UserID) :
    collectMentions authorID recipientUserIDs mentioned tokens =
      mentioned ++ (((tokens.filterMap atoi).filter fun id =>
        decide (id ∈ recipientUserIDs ∧ id ≠ authorID ∧ id ∉ mentioned)).eraseDups.take
          (maxMentionsPerMessage - mentioned.length)) := by
  induction tokens generalizing mentioned with
  | nil => simp [collectMentions]
  | cons token tokens ih =>
    rw [collectMentions]
    by_cases hfull : mentioned.length ≥ maxMentionsPerMessage
    · rw [if_pos hfull,Nat.sub_eq_zero_of_le hfull,List.take_zero,List.append_nil]
    · rw [if_neg hfull]
      cases hid : atoi token with
      | none => rw [List.filterMap_cons_none hid,ih]
      | some id =>
        rw [List.filterMap_cons_some hid]
        dsimp only
        by_cases hskip : id = authorID ∨ id ∉ recipientUserIDs ∨ id ∈ mentioned
        · have hdropped : ¬ (id ∈ recipientUserIDs ∧ id ≠ authorID ∧ id ∉ mentioned) := by
            rintro ⟨hmember,hauthor,hnew⟩
            rcases hskip with h | h | h
            · exact hauthor h
            · exact h hmember
            · exact hnew h
          rw [if_pos hskip,ih,List.filter_cons_of_neg (by simpa only [decide_eq_true_iff])]
        · have htaken : id ∈ recipientUserIDs ∧ id ≠ authorID ∧ id ∉ mentioned := by
            rw [not_or,not_or,not_not] at hskip
            exact ⟨hskip.2.1,hskip.1,hskip.2.2⟩
          have hroom : maxMentionsPerMessage - mentioned.length =
              maxMentionsPerMessage - (mentioned ++ [id]).length + 1 := by
            rw [List.length_append,List.length_singleton]
            omega
          rw [if_neg hskip,ih,List.filter_cons_of_pos (by simpa only [decide_eq_true_iff]),
            List.eraseDups_cons,hroom,List.take_succ_cons,List.append_assoc,
            List.singleton_append,filter_found]

theorem collectMentions_tokens (authorID : UserID) (recipientUserIDs : List UserID)
    (text : List Char) :
    collectMentions authorID recipientUserIDs [] (mentionTokens .outside text) =
      (mentionedUsers authorID recipientUserIDs text).take maxMentionsPerMessage := by
  have htokens : mentionTokens .outside text = mentionsIn text :=
    mentionTokens_eq .outside text trivial
  rw [collectMentions_eq,htokens,mentionedUsers]
  simp

theorem resolveMentions_returns (content : String) (authorID : UserID) (channelID : ChannelID)
    (recipientUserIDs : List UserID) :
    ∀ l o, Program.Path (resolveMentions content authorID channelID recipientUserIDs) l o →
      ∃ everyone, o = some (collectMentions authorID recipientUserIDs []
        (mentionTokens .outside content.toList),everyone) := by
  have hevery : Program.Every (fun _ o => ∃ everyone, o = some (collectMentions authorID
      recipientUserIDs [] (mentionTokens .outside content.toList),everyone))
        (resolveMentions content authorID channelID recipientUserIDs) := by
    rw [resolveMentions]
    split
    · rintro (err | (_ | _))
      · exact ⟨false,rfl⟩
      · exact ⟨false,rfl⟩
      · exact ⟨true,rfl⟩
    · exact ⟨false,rfl⟩
  exact Program.every_iff.mp hevery

/-- Whatever the storage answers, the mentions that are resolved are the first distinct users
that the content mentions. -/
theorem resolveMentions_first (content : String) (authorID : UserID) (channelID : ChannelID)
    (recipientUserIDs : List UserID) :
    ∀ l o, Program.Path (resolveMentions content authorID channelID recipientUserIDs) l o →
      ∃ everyone, o = some
        ((mentionedUsers authorID recipientUserIDs content.toList).take maxMentionsPerMessage,
          everyone) := by
  intro l o h
  rw [← collectMentions_tokens]
  exact resolveMentions_returns content authorID channelID recipientUserIDs l o h

theorem resolveMentions_first_two : ∃ everyone, some ([3,2],false) =
    some ((mentionedUsers 1 [1,2,3] "<@3> <@2> <@3> <@1> <@4>".toList).take maxMentionsPerMessage,
      everyone) := by
  have hfound : collectMentions 1 [1,2,3] []
      (mentionTokens .outside "<@3> <@2> <@3> <@1> <@4>".toList) = [3,2] := by
    decide +kernel
  have hpath : Program.Path (resolveMentions "<@3> <@2> <@3> <@1> <@4>" 1 5 [1,2,3]) []
      (some ([3,2],false)) := by
    rw [resolveMentions,hfound,if_neg (by decide +kernel)]
    exact .ret _
  exact resolveMentions_first "<@3> <@2> <@3> <@1> <@4>" 1 5 [1,2,3] [] _ hpath

/-- A value with few before it is among the first distinct ones. -/
theorem mem_take_eraseDups {l r : List UserID} {id : UserID} {n : ℕ} (h : l.eraseDups.length < n) :
    id ∈ (l ++ id :: r).eraseDups.take n := by
  rw [List.eraseDups_append,List.take_append,List.take_of_length_le h.le,List.mem_append]
  by_cases hm : id ∈ l
  · exact Or.inl (List.mem_eraseDups.mpr hm)
  · refine Or.inr ?_
    obtain ⟨k,hk⟩ : ∃ k, n - l.eraseDups.length = k + 1 := ⟨n - l.eraseDups.length - 1,by omega⟩
    have hkeep : (id :: r).removeAll l = id :: r.removeAll l := by
      rw [List.removeAll,List.filter_cons_of_pos (by simpa using hm)]
      rfl
    rw [hkeep,List.eraseDups_cons,hk,List.take_succ_cons]
    exact List.mem_cons_self

/-- A user whom a mention names is resolved unless those before it fill the message. -/
theorem mem_resolved {content : String} {authorID id : UserID} {channelID : ChannelID}
    {recipientUserIDs : List UserID} {front digits : List Char} {after : List (List Char)}
    (hcontent : mentionsIn content.toList = mentionsIn front ++ digits :: after)
    (hid : atoi digits = some id) (hmember : id ∈ recipientUserIDs) (hauthor : id ≠ authorID)
    (hroom : (mentionedUsers authorID recipientUserIDs front).length < maxMentionsPerMessage)
    {l : List (Entry Call Call.Answer Act)} {o : Option (List UserID × Bool)}
    (h : Program.Path (resolveMentions content authorID channelID recipientUserIDs) l o) :
    ∃ mentioned everyone, o = some (mentioned,everyone) ∧ id ∈ mentioned := by
  obtain ⟨everyone,rfl⟩ := resolveMentions_returns content authorID channelID recipientUserIDs l o h
  refine ⟨_,everyone,rfl,?_⟩
  have hkept : (id :: after.filterMap atoi).filter
      (fun id => decide (id ∈ recipientUserIDs ∧ id ≠ authorID)) = id :: (after.filterMap atoi).filter
        (fun id => decide (id ∈ recipientUserIDs ∧ id ≠ authorID)) :=
    List.filter_cons_of_pos (decide_eq_true ⟨hmember,hauthor⟩)
  rw [collectMentions_tokens,mentionedUsers,hcontent,List.filterMap_append,
    List.filterMap_cons_some hid,List.filter_append,hkept]
  exact mem_take_eraseDups hroom

end MiniDiscord.ChatHub
