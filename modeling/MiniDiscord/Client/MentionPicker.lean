import MiniDiscord.Commands.Mentions
import MiniDiscord.Links.Agreement
import MiniDiscord.Links.Cuts
import MiniDiscord.Transition.LabelledRuns

/-! # Mentions that are picked from the list

The composer looks for an `@` before the caret and shows the members that what follows it
matches. An entry that is picked takes the place of the `@` and of the query. Keys come in any
order, and the members may be loaded again at any moment.
-/
namespace MiniDiscord.MentionPicker
open Links Matches Unicode Coding Transition

/-- `lastIndexOf` of a text of one unit. -/
def lastIndexOf (u : UInt16) : Text → Option ℕ
  | [] => none
  | v :: rest =>
    match lastIndexOf u rest with
    | some i => some (i + 1)
    | none => if v = u then some 0 else none

structure MentionMatch where
  triggerIndex : ℕ
  query : Text
  deriving DecidableEq

def detectMentionQuery (text : Text) (caretIndex : ℕ) : Option MentionMatch :=
  let uptoCaret := text.take caretIndex
  match lastIndexOf 0x40 uptoCaret with
  | none => none
  | some i =>
    let before := if 0 < i then uptoCaret[i - 1]? else none
    if before.any (fun u => !jsSpace u.toNat) then none
    else
      let query := uptoCaret.drop (i + 1)
      if query.any (fun u => jsSpace u.toNat) then none else some ⟨i,query⟩

abbrev Member := ServerMember ℕ

def maxResults : ℕ := 8

structure MentionResults where
  showEveryone : Bool
  members : List Member

def MentionResults.total (results : MentionResults) : ℕ :=
  results.members.length + if results.showEveryone then 1 else 0

/-- `lower` is `toLowerCase`. -/
def computeMentionResults (lower : Text → Text) (allMembers : List Member) (query : Text) :
    MentionResults :=
  let normalized := lower (trim query)
  let filtered :=
    if normalized ≠ [] then
      allMembers.filter (fun member =>
        let nickname := (member.nickname.map lower).getD []
        let fullName := lower (member.first_name.getD [] ++ [0x20] ++ member.last_name.getD [])
        decide (normalized <:+: nickname) || decide (normalized <:+: fullName))
    else allMembers
  ⟨decide (normalized <+: everyone.drop 1),filtered.take maxResults⟩

/-- A line of the list. -/
inductive Entry where
  | everyone
  | member (member : Member)

/-- The line under an index: `@everyone` comes first when it is shown. -/
def entryAt (results : MentionResults) (index : ℕ) : Option Entry :=
  if results.showEveryone = true ∧ index = 0 then some .everyone
  else (results.members[index - if results.showEveryone then 1 else 0]?).map .member

/-- `<@id>`. -/
def memberToken (userId : ℕ) : List Char := '<' :: '@' :: (Nat.toDigits 10 userId ++ ['>'])

def Entry.token : Entry → List Char
  | .everyone => ['@','e','v','e','r','y','o','n','e']
  | .member m => memberToken m.user_id

/-- The composer, as far as mentions are concerned. -/
structure Composer where
  text : Text := []
  mentionMatch : Option MentionMatch := none
  mentionActiveIndex : ℕ := 0
  serverMembers : List Member := []

/-- `sent` is the end of a submission, `click` a click on a line of the list. -/
inductive Event where
  | change (value : Text) (caretIndex : ℕ)
  | arrowDown
  | arrowUp
  | enter
  | escape
  | blur
  | click (index : ℕ)
  | sent
  | members (serverMembers : List Member)

namespace Composer

def mentionResults (s : Composer) (lower : Text → Text) : Option MentionResults :=
  s.mentionMatch.map (fun m => computeMentionResults lower s.serverMembers m.query)

def closeMentionAutocomplete (s : Composer) : Composer :=
  { s with mentionMatch := none, mentionActiveIndex := 0 }

def insertMentionToken (s : Composer) (token : Text) : Composer :=
  match s.mentionMatch with
  | none => s
  | some m =>
    let caretEnd := m.triggerIndex + 1 + m.query.length
    closeMentionAutocomplete
      { s with text := s.text.take m.triggerIndex ++ token ++ 0x20 :: s.text.drop caretEnd }

/-- The line that an event picks. -/
def picks (s : Composer) (lower : Text → Text) : Event → Option Entry
  | .enter => (s.mentionResults lower).bind (fun results => entryAt results s.mentionActiveIndex)
  | .click index => (s.mentionResults lower).bind (fun results => entryAt results index)
  | _ => none

/-- The arrow keys move within the list while it has lines. -/
def move (s : Composer) (lower : Text → Text) (next : ℕ → ℕ → ℕ) : Composer :=
  match s.mentionResults lower with
  | none => s
  | some results =>
    if results.total = 0 then s
    else { s with mentionActiveIndex := next s.mentionActiveIndex results.total % results.total }

def step (lower : Text → Text) (s : Composer) : Event → Option Composer
  | .change value caretIndex =>
    some { s with
      text := value
      mentionMatch := detectMentionQuery value caretIndex
      mentionActiveIndex := 0 }
  | .arrowDown => some (s.move lower (fun prev _ => prev + 1))
  | .arrowUp => some (s.move lower (fun prev total => prev + total - 1))
  | .enter =>
    match s.picks lower .enter with
    | some entry => some (s.insertMentionToken (utf16 entry.token))
    -- without a line the key submits, or does nothing
    | none => some s
  | .escape => some s.closeMentionAutocomplete
  | .blur => some s.closeMentionAutocomplete
  | .click index => (s.picks lower (.click index)).map (fun entry =>
      s.insertMentionToken (utf16 entry.token))
  | .sent => some (closeMentionAutocomplete { s with text := [] })
  | .members serverMembers => some { s with serverMembers := serverMembers }

end Composer

/-! ## What is detected -/

theorem lastIndexOf_none {u : UInt16} {text : Text} (h : lastIndexOf u text = none) : u ∉ text := by
  induction text with
  | nil => exact List.not_mem_nil
  | cons v rest ih =>
    rw [lastIndexOf] at h
    split at h
    · cases h
    · rename_i hrest
      split at h
      · cases h
      · rename_i hv
        rw [List.mem_cons,not_or]
        exact ⟨fun he => hv he.symm,ih hrest⟩

theorem lastIndexOf_some {u : UInt16} {text : Text} {i : ℕ} (h : lastIndexOf u text = some i) :
    ∃ front back, text = front ++ u :: back ∧ front.length = i ∧ u ∉ back := by
  induction text generalizing i with
  | nil => cases h
  | cons v rest ih =>
    rw [lastIndexOf] at h
    split at h
    · rename_i j hrest
      cases h
      obtain ⟨front,back,rfl,rfl,hback⟩ := ih hrest
      exact ⟨v :: front,back,rfl,rfl,hback⟩
    · rename_i hrest
      split at h
      · rename_i hv
        cases h
        exact ⟨[],rest,by rw [hv]; rfl,rfl,lastIndexOf_none hrest⟩
      · cases h

/-- A query stands between its `@` and the caret, and white space or nothing before the `@`. -/
theorem detectMentionQuery_some {text : Text} {caretIndex : ℕ} {m : MentionMatch}
    (h : detectMentionQuery text caretIndex = some m) :
    ∃ before, text.take caretIndex = before ++ 0x40 :: m.query ∧
      before.length = m.triggerIndex ∧ Cut before := by
  simp only [detectMentionQuery] at h
  split at h
  · cases h
  · rename_i i hi
    obtain ⟨before,query,htake,rfl,_⟩ := lastIndexOf_some hi
    have hquery : (text.take caretIndex).drop (before.length + 1) = query := by
      rw [htake,← List.drop_drop,List.drop_left,List.drop_one,List.tail_cons]
    obtain ⟨hbefore,h⟩ := Option.ite_none_left_eq_some.mp h
    obtain ⟨_,h⟩ := Option.ite_none_left_eq_some.mp h
    cases h
    refine ⟨before,by rw [hquery]; exact htake,rfl,fun u hu => ?_⟩
    obtain ⟨front,rfl⟩ := List.getLast?_eq_some_iff.mp hu
    rw [if_pos (by simp),htake,List.length_append,List.length_singleton,Nat.add_sub_cancel,
      List.append_assoc,List.getElem?_append_right le_rfl,Nat.sub_self] at hbefore
    simpa using hbefore

/-- A match is one of the text that stands in the composer. -/
def Composer.Fits (s : Composer) : Prop :=
  ∀ m, s.mentionMatch = some m → ∃ caretIndex, detectMentionQuery s.text caretIndex = some m

variable {lower : Text → Text} {s s' : Composer} {e : Event} {es : List Event}

theorem Composer.Fits.insertMentionToken (h : s.Fits) (token : Text) :
    (s.insertMentionToken token).Fits := by
  unfold Composer.insertMentionToken
  split
  · exact h
  · exact fun m hm => by cases hm

theorem Composer.Fits.move (h : s.Fits) (next : ℕ → ℕ → ℕ) : (s.move lower next).Fits := by
  unfold Composer.move
  split
  · exact h
  · split <;> exact h

theorem Composer.Fits.step (h : s.Fits) (he : s.step lower e = some s') : s'.Fits := by
  have hclosed : ∀ t : Composer, t.closeMentionAutocomplete.Fits := fun t m hm => by cases hm
  cases e with
  | change value caretIndex =>
    cases he
    exact fun m hm => ⟨caretIndex,hm⟩
  | arrowDown =>
    cases he
    exact h.move _
  | arrowUp =>
    cases he
    exact h.move _
  | enter =>
    simp only [Composer.step] at he
    split at he <;> cases he
    · exact h.insertMentionToken _
    · exact h
  | escape =>
    cases he
    exact hclosed s
  | blur =>
    cases he
    exact hclosed s
  | click index =>
    obtain ⟨entry,_,rfl⟩ := Option.map_eq_some_iff.mp he
    exact h.insertMentionToken _
  | sent =>
    cases he
    exact hclosed _
  | members serverMembers =>
    cases he
    exact h

/-- The event that picks a line puts its token in. -/
theorem Composer.step_picks {entry : Entry} (hp : s.picks lower e = some entry)
    (he : s.step lower e = some s') :
    (∃ m, s.mentionMatch = some m) ∧ s' = s.insertMentionToken (utf16 entry.token) := by
  have hmatch : ∀ {index : ℕ},
      (s.mentionResults lower).bind (fun results => entryAt results index) = some entry →
      ∃ m, s.mentionMatch = some m := by
    intro index h
    obtain ⟨results,hr,_⟩ := Option.bind_eq_some_iff.mp h
    obtain ⟨m,hm,_⟩ := Option.map_eq_some_iff.mp hr
    exact ⟨m,hm⟩
  cases e with
  | enter =>
    simp only [Composer.step,hp,Option.some.injEq] at he
    exact ⟨hmatch hp,he.symm⟩
  | click index =>
    simp only [Composer.step,hp,Option.map_some,Option.some.injEq] at he
    exact ⟨hmatch hp,he.symm⟩
  | _ => cases hp

/-- In every run a picked line takes the place of the `@` that it was looked for with, of the
query, and of nothing else. -/
theorem picked_text (hr : Runs (Composer.step lower) {} es s) {entry : Entry}
    (hp : s.picks lower e = some entry) (he : s.step lower e = some s') :
    ∃ m before after, s.mentionMatch = some m ∧ s.text = before ++ 0x40 :: m.query ++ after ∧
      before.length = m.triggerIndex ∧ Cut before ∧
      s'.text = before ++ utf16 entry.token ++ 0x20 :: after := by
  have hfits : s.Fits := hr.invariant (P := Composer.Fits) (fun m hm => by cases hm)
    (fun h _ he => h.step he)
  obtain ⟨⟨m,hm⟩,rfl⟩ := Composer.step_picks hp he
  obtain ⟨caretIndex,hdetect⟩ := hfits m hm
  obtain ⟨before,htake,hlen,hcut⟩ := detectMentionQuery_some hdetect
  have htext : s.text = before ++ 0x40 :: m.query ++ s.text.drop caretIndex := by
    rw [← htake,List.take_append_drop]
  refine ⟨m,before,s.text.drop caretIndex,hm,htext,hlen,hcut,?_⟩
  have hfront : s.text.take m.triggerIndex = before := by
    rw [htext,← hlen,List.append_assoc,List.take_left]
  have hback : s.text.drop (m.triggerIndex + 1 + m.query.length) = s.text.drop caretIndex := by
    have hl : (before ++ 0x40 :: m.query).length = m.triggerIndex + 1 + m.query.length := by
      rw [List.length_append,List.length_cons,hlen]
      omega
    conv_lhs => rw [htext,← hl,List.drop_left]
  simp only [Composer.insertMentionToken,hm,Composer.closeMentionAutocomplete,hfront,hback]

/-! ## What the client shows -/

theorem isDigit_toDigits {n : ℕ} {c : Char} (h : c ∈ Nat.toDigits 10 n) : c.isDigit = true :=
  Nat.isDigit_of_mem_toDigits (by decide) (by decide) h

theorem utf16EncodeChar_of_lt {c : Char} (h : c.toNat < 0x10000) :
    utf16EncodeChar c = [UInt16.ofNat c.toNat] := if_pos h

theorem digit_utf16 {cs : List Char} (h : ∀ c ∈ cs, c.isDigit = true) :
    ∀ u ∈ utf16 cs, digit u = true := by
  intro u hu
  obtain ⟨c,hc,hu⟩ := List.mem_flatMap.mp hu
  have hd : 48 ≤ c.toNat ∧ c.toNat ≤ 57 := by
    have := h c hc
    rw [Char.isDigit,Bool.and_eq_true,decide_eq_true_eq,decide_eq_true_eq] at this
    exact ⟨this.1,this.2⟩
  rw [utf16EncodeChar_of_lt (by omega),List.mem_singleton] at hu
  rw [hu,digit,decide_eq_true_eq,UInt16.toNat_ofNat']
  omega

theorem utf16_memberToken (userId : ℕ) :
    utf16 (memberToken userId) = mentionOpening ++ utf16 (Nat.toDigits 10 userId) ++ [0x3E] := by
  simp only [memberToken,utf16,List.flatMap_cons,List.flatMap_append,List.flatMap_nil,
    List.append_nil]
  rfl

/-- The token of a member is one for the pattern, whatever follows the blank behind it. -/
theorem len_memberToken (userId : ℕ) (rest : Text) :
    mentionLength (utf16 (memberToken userId) ++ rest) = (utf16 (memberToken userId)).length := by
  have hdigits : mentionDigits (utf16 (memberToken userId) ++ rest) =
      utf16 (Nat.toDigits 10 userId) := by
    have hdrop : (utf16 (memberToken userId) ++ rest).drop 2 =
        utf16 (Nat.toDigits 10 userId) ++ 0x3E :: rest := by
      rw [utf16_memberToken,List.append_assoc,List.append_assoc]
      rfl
    rw [mentionDigits,hdrop,takeWhile_cut (by decide)]
    exact List.takeWhile_eq_self_iff.mpr (digit_utf16 (fun _ hc => isDigit_toDigits hc))
  have hne : utf16 (Nat.toDigits 10 userId) ≠ [] := by
    cases hd : Nat.toDigits 10 userId with
    | nil => exact absurd hd Nat.toDigits_ne_nil
    | cons c cs =>
      rw [utf16,List.flatMap_cons]
      exact List.append_ne_nil_of_left_ne_nil (utf16_transparent.nonempty c) _
  have hopen : mentionOpening <+: utf16 (memberToken userId) ++ rest := by
    rw [utf16_memberToken,List.append_assoc,List.append_assoc]
    exact List.prefix_append _ _
  have hclose : ((utf16 (memberToken userId) ++ rest).drop
      (2 + (utf16 (Nat.toDigits 10 userId)).length)).head? = some 0x3E := by
    rw [utf16_memberToken,List.append_assoc,List.append_assoc,← List.drop_drop]
    change (((utf16 (Nat.toDigits 10 userId)) ++ ([0x3E] ++ rest)).drop _).head? = _
    rw [List.drop_left]
    rfl
  rw [mentionLength,hdigits,if_pos ⟨hopen,hne,hclose⟩,utf16_memberToken,List.length_append,
    List.length_append]
  rfl

theorem len_token (entry : Entry) (rest : Text) :
    tokenPattern.len (utf16 entry.token ++ rest) = (utf16 entry.token).length := by
  change tokenLength _ = _
  cases entry with
  | everyone =>
    have hpre : everyone <+: utf16 Entry.everyone.token ++ rest := List.prefix_append _ _
    have hnone : mentionLength (utf16 Entry.everyone.token ++ rest) = 0 := by
      refine if_neg (fun h => ?_)
      obtain ⟨t,ht⟩ := h.1
      exact absurd (List.cons.inj ht).1 (by decide)
    rw [tokenLength,if_neg (not_not.mpr hnone),everyoneLength,if_pos hpre]
    exact if_pos (by decide)
  | member m =>
    have hlen := len_memberToken m.user_id rest
    have hne : (utf16 (memberToken m.user_id)).length ≠ 0 := by
      rw [utf16_memberToken]
      simp
    rw [tokenLength,Entry.token,hlen,if_pos hne]

theorem findAll_token (entry : Entry) (after : Text) :
    findAll tokenPattern (utf16 entry.token ++ 0x20 :: after) =
      utf16 entry.token :: findAll tokenPattern after := by
  have hlen := len_token entry (0x20 :: after)
  have hne : tokenPattern.len (utf16 entry.token ++ 0x20 :: after) ≠ 0 := by
    rw [hlen]
    cases entry with
    | everyone => decide
    | member m =>
      rw [Entry.token,utf16_memberToken]
      simp
  have hblank : tokenPattern.len ([] ++ 0x20 :: after) = tokenPattern.len ([] ++ [0x20]) :=
    tokenPattern_cut (by decide)
  rw [findAll_match hne,hlen,List.take_left,List.drop_left,findAll_cons hblank]

section Shown
variable {Number : Type*} {number : Text → Number} {decimal : Number → Text}
  {membersById : Number → Option (ServerMember Number)}

/-- What the client shows for a line that was picked. -/
def Entry.node (number : Text → Number) (decimal : Number → Text)
    (membersById : Number → Option (ServerMember Number)) : Entry → Node
  | .everyone => .everyone
  | .member m => .mention (utf16 (memberToken m.user_id))
    (mentionLabel number decimal membersById (utf16 (memberToken m.user_id)))

theorem tokenNode_token (entry : Entry) :
    tokenNode number decimal membersById (utf16 entry.token) =
      entry.node number decimal membersById := by
  cases entry with
  | everyone => rfl
  | member m =>
    have hne : utf16 (memberToken m.user_id) ≠ everyone := by
      rw [utf16_memberToken]
      exact fun he => absurd (List.cons.inj he).1 (by decide)
    have hopen : mentionOpening <+: utf16 (memberToken m.user_id) := by
      rw [utf16_memberToken,List.append_assoc]
      exact List.prefix_append _ _
    rw [Entry.token,tokenNode,if_neg hne,if_pos hopen]
    rfl

/-- In every run a line that is picked takes the place of the `@` and of the query, and is shown
as one node: the mention of its member, or `@everyone`. Before it stand the links and mentions of
what is written before the `@`, behind it those of what is written behind the caret. -/
theorem picked_shown (number : Text → Number) (decimal : Number → Text)
    (membersById : Number → Option (ServerMember Number))
    (hr : Runs (Composer.step lower) {} es s) {entry : Entry}
    (hp : s.picks lower e = some entry) (he : s.step lower e = some s') :
    ∃ m before after, s.mentionMatch = some m ∧ s.text = before ++ 0x40 :: m.query ++ after ∧
      before.length = m.triggerIndex ∧ s'.text = before ++ utf16 entry.token ++ 0x20 :: after ∧
      shownTokens number decimal membersById s'.text =
        shownTokens number decimal membersById before ++
          entry.node number decimal membersById :: shownTokens number decimal membersById after := by
  obtain ⟨m,before,after,hm,htext,hlen,hcut,hnext⟩ := picked_text hr hp he
  refine ⟨m,before,after,hm,htext,hlen,hnext,?_⟩
  rw [shownTokens_eq,shownTokens_eq,shownTokens_eq,hnext,List.append_assoc,findAll_cut hcut,
    findAll_token,List.map_append,List.map_cons,tokenNode_token]

/-- A member as the composer knows it. -/
def ann : Member := ⟨7,some (utf16 ['a','n','n']),none,none⟩

/-- The composer after `hi @an` was typed on a server with one member. -/
def looksForAnn : List Event := [.members [ann],.change (utf16 ['h','i',' ','@','a','n']) 6]

/-- `Number` and the text of a number, on whole numbers. -/
def numberOf (text : Text) : ℕ := text.foldl (fun n u => 10 * n + (u.toNat - 0x30)) 0

def decimalOf (n : ℕ) : Text := utf16 (Nat.toDigits 10 n)

def looking : Composer := after (Composer.step id) {} looksForAnn

theorem picked_shown_ann : ∃ m before rest, looking.mentionMatch = some m ∧
    looking.text = before ++ 0x40 :: m.query ++ rest ∧ before.length = m.triggerIndex ∧
    (looking.insertMentionToken (utf16 (memberToken 7))).text =
      before ++ utf16 (memberToken 7) ++ 0x20 :: rest ∧
    shownTokens numberOf decimalOf (fun n => if n = 7 then some ann else none)
        (looking.insertMentionToken (utf16 (memberToken 7))).text =
      shownTokens numberOf decimalOf (fun n => if n = 7 then some ann else none) before ++
        (Entry.member ann).node numberOf decimalOf (fun n => if n = 7 then some ann else none) ::
          shownTokens numberOf decimalOf (fun n => if n = 7 then some ann else none) rest :=
  picked_shown numberOf decimalOf (fun n => if n = 7 then some ann else none)
    (runs_after (by rfl) : Runs (Composer.step id) {} looksForAnn _)
    (by rfl : looking.picks id .enter = some (.member ann)) (by rfl)

end Shown

/-! ## Whom the server finds mentioned -/

/-- What the client and the server trim. -/
def Blank (c : Char) : Prop := jsSpace c.toNat = true ∨ c.toNat = 0x85

theorem Blank.outside {c : Char} (h : Blank c) :
    c ≠ '<' ∧ c ≠ '@' ∧ c ≠ '>' ∧ c.isDigit = false := by
  have hall : ∀ d : Char, ¬ Blank d → c ≠ d := by
    rintro d hd rfl
    exact hd h
  refine ⟨hall '<' ?_,hall '@' ?_,hall '>' ?_,?_⟩
  · rintro (h' | h') <;> revert h' <;> decide
  · rintro (h' | h') <;> revert h' <;> decide
  · rintro (h' | h') <;> revert h' <;> decide
  · by_contra hd
    rw [Bool.not_eq_false,Char.isDigit,Bool.and_eq_true,decide_eq_true_eq,decide_eq_true_eq] at hd
    have hdigit : 48 ≤ c.toNat ∧ c.toNat ≤ 57 := ⟨hd.1,hd.2⟩
    rcases h with h | h
    · have hnone : ∀ n ≤ 57, 48 ≤ n → jsSpace n = false := by decide
      rw [hnone _ hdigit.2 hdigit.1] at h
      cases h
    · omega

open ChatHub (mentionAt mentionsIn mentionedUsers atoi resolveMentions maxMentionsPerMessage)

/-- No mention reaches over a blank. -/
theorem mentionAt_cut {c : Char} (hc : Blank c) (word rest : List Char) :
    mentionAt (word ++ c :: rest) = mentionAt word := by
  obtain ⟨hopen,hat,hclose,hdigit⟩ := hc.outside
  match word with
  | [] => exact ChatHub.mentionAt_cons hopen rest
  | [a] =>
    have hnone : ∀ d, mentionAt [d] = none := fun d => by
      rw [mentionAt]
      rintro t ht
      cases (List.cons.inj ht).2
    rw [hnone,List.singleton_append,mentionAt]
    rintro t ht
    exact hat (List.cons.inj (List.cons.inj ht).2).1
  | a :: b :: word =>
    by_cases hab : a = '<' ∧ b = '@'
    · obtain ⟨rfl,rfl⟩ := hab
      have hhead : ((word ++ c :: rest).drop (word.takeWhile Char.isDigit).length).head? = some '>' ↔
          (word.drop (word.takeWhile Char.isDigit).length).head? = some '>' := by
        rw [List.drop_append_of_le_length (List.takeWhile_prefix _).length_le,List.head?_append]
        cases (word.drop (word.takeWhile Char.isDigit).length).head? with
        | none => simpa using hclose
        | some d => simp
      simp only [List.cons_append,mentionAt,takeWhile_cut hdigit,hhead]
    · have hnone : ∀ t, mentionAt (a :: b :: t) = none := by
        intro t
        rw [mentionAt]
        rintro r hr
        exact hab ⟨(List.cons.inj hr).1,(List.cons.inj (List.cons.inj hr).2).1⟩
      rw [List.cons_append,List.cons_append,hnone,hnone]

theorem mentionsIn_cut {c : Char} (hc : Blank c) (front rest : List Char) :
    mentionsIn (front ++ c :: rest) = mentionsIn front ++ mentionsIn rest := by
  induction front with
  | nil => exact ChatHub.mentionsIn_other hc.outside.1 rest
  | cons a front ih =>
    rw [List.cons_append,ChatHub.mentionsIn_cons,ih,ChatHub.mentionsIn_cons,← List.cons_append,
      mentionAt_cut hc,List.append_assoc]

theorem mentionsIn_blanks {cs : List Char} (h : ∀ c ∈ cs, Blank c) : mentionsIn cs = [] := by
  induction cs with
  | nil => rfl
  | cons c cs ih =>
    rw [ChatHub.mentionsIn_other (h c List.mem_cons_self).outside.1,
      ih (fun d hd => h d (List.mem_cons_of_mem c hd))]

/-- Trimming a text takes no mention off it. -/
theorem mentionsIn_trim {lead content trail : List Char} (hlead : ∀ c ∈ lead, Blank c)
    (htrail : ∀ c ∈ trail, Blank c) : mentionsIn (lead ++ content ++ trail) = mentionsIn content := by
  have hback : mentionsIn (content ++ trail) = mentionsIn content := by
    cases trail with
    | nil => rw [List.append_nil]
    | cons c trail =>
      rw [mentionsIn_cut (htrail c List.mem_cons_self),
        mentionsIn_blanks (fun d hd => htrail d (List.mem_cons_of_mem c hd)),List.append_nil]
  induction lead with
  | nil => exact hback
  | cons c lead ih =>
    rw [List.cons_append,List.cons_append,
      ChatHub.mentionsIn_other (hlead c List.mem_cons_self).outside.1]
    exact ih (fun d hd => hlead d (List.mem_cons_of_mem c hd))

/-- The digits that an entry is found mentioned with. -/
def Entry.digits : Entry → List (List Char)
  | .everyone => []
  | .member m => [Nat.toDigits 10 m.user_id]

theorem mentionsIn_token (entry : Entry) (after : List Char) :
    mentionsIn (entry.token ++ ' ' :: after) = entry.digits ++ mentionsIn after := by
  have hblank : Blank ' ' := .inl (by decide)
  rw [mentionsIn_cut hblank]
  congr 1
  cases entry with
  | everyone => rfl
  | member m =>
    have hclose : ∀ c ∈ ['>'].head?, c.isDigit = false := by
      rintro c ⟨⟩
      rfl
    rw [Entry.token,memberToken,ChatHub.mentionsIn_opened (fun _ hc => isDigit_toDigits hc) hclose,
      if_pos ⟨Nat.toDigits_ne_nil,rfl⟩]
    rfl

theorem atoi_toDigits {n : ℕ} (h : n < 2 ^ 63) : atoi (Nat.toDigits 10 n) = some (n : ℤ) := by
  have hvalue : (Nat.toDigits 10 n).foldl (fun n c => 10 * n + (c.toNat - '0'.toNat)) 0 = n := by
    rw [← Nat.ofDigitChars_eq_foldl]
    exact Nat.ofDigitChars_ten_toDigits
  rw [atoi,hvalue,if_pos h]

/-- A unit of the first plane stands for a character of its own. -/
theorem utf16_split {chars : List Char} {before rest : Text} {c : Char}
    (hc : firstPlane c.toNat = true) (h : utf16 chars = before ++ UInt16.ofNat c.toNat :: rest) :
    ∃ front back, chars = front ++ c :: back ∧ utf16 front = before ∧ utf16 back = rest := by
  have hlt : c.toNat < 0x10000 := (of_decide_eq_true hc).1
  have hcode : (UInt16.ofNat c.toNat).toNat = c.toNat := by
    rw [UInt16.toNat_ofNat']
    omega
  induction chars generalizing before with
  | nil => exact absurd (congrArg List.length h) (by simp [utf16])
  | cons d chars ih =>
    rw [utf16,List.flatMap_cons] at h
    rcases List.append_eq_append_iff.mp h with ⟨t,rfl,ht⟩ | ⟨t,hd,ht⟩
    · obtain ⟨front,back,rfl,rfl,hback⟩ := ih ht
      exact ⟨d :: front,back,rfl,rfl,hback⟩
    · cases t with
      | nil =>
        rw [List.append_nil] at hd
        have hrest : utf16 chars = [] ++ UInt16.ofNat c.toNat :: rest := ht.symm
        obtain ⟨front,back,rfl,hfront,hback⟩ := ih hrest
        refine ⟨d :: front,back,rfl,?_,hback⟩
        rw [utf16,List.flatMap_cons,hd]
        change before ++ utf16 front = before
        rw [hfront,List.append_nil]
      | cons u t =>
        obtain ⟨rfl,rfl⟩ := List.cons.inj ht
        -- the unit is one of the character `d`, which is therefore the character itself
        have hmem : UInt16.ofNat c.toNat ∈ utf16EncodeChar d := by
          rw [hd]
          exact List.mem_append_right _ List.mem_cons_self
        rcases utf16_transparent.alone d with ⟨v,hv,hvd⟩ | ⟨_,_,hnone⟩
        · rw [hv,List.mem_singleton] at hmem
          obtain rfl : c = d := charCode_injective (by rw [← hvd,← hmem,hcode])
          rw [hv] at hd
          have hl := congrArg List.length hd
          rw [List.length_singleton,List.length_append,List.length_cons] at hl
          obtain rfl : before = [] := List.length_eq_zero_iff.mp (by omega)
          obtain rfl : t = [] := List.length_eq_zero_iff.mp (by rw [List.length_nil] at hl; omega)
          exact ⟨[],chars,rfl,rfl,rfl⟩
        · have := hnone _ hmem
          rw [hcode,hc] at this
          cases this

/-- A text that ends with white space ends with a blank. -/
theorem blank_of_cut {front : List Char} (h : Cut (utf16 front)) :
    front = [] ∨ ∃ init c, front = init ++ [c] ∧ Blank c := by
  rcases List.eq_nil_or_concat' front with rfl | ⟨init,c,rfl⟩
  · exact .inl rfl
  · refine .inr ⟨init,c,rfl,.inl ?_⟩
    obtain ⟨us,u,hu,halone⟩ := utf16_transparent.last_unit c
    have hlast : (utf16 (init ++ [c])).getLast? = some u := by
      rw [utf16,List.flatMap_append,List.flatMap_singleton,hu,← List.append_assoc,
        List.getLast?_concat]
    have hspace := h u hlast
    rcases halone with ⟨_,hcode⟩ | ⟨_,hnone⟩
    · rwa [← hcode]
    · rw [jsSpace_firstPlane hspace] at hnone
      cases hnone

/-- In every run, for a text and a caret between two of its characters: after a line was picked,
the server finds in what is sent of the text, without the blanks around it, the mentions of what
is written before the `@`, the one of the member that was picked, and those behind the caret. The
member is resolved if a recipient other than the author, unless as many others as a message may
mention are named before. -/
theorem picked_mentioned (hr : Runs (Composer.step lower) {} es s) {entry : Entry}
    (hp : s.picks lower e = some entry) (he : s.step lower e = some s') {upto after : List Char}
    (htext : s.text = utf16 (upto ++ after))
    (hcaret : ∀ m, s.mentionMatch = some m →
      m.triggerIndex + 1 + m.query.length = (utf16 upto).length) :
    ∃ before query, upto = before ++ '@' :: query ∧
      s'.text = utf16 (before ++ entry.token ++ ' ' :: after) ∧
      ∀ lead (content : String) trail,
        before ++ entry.token ++ ' ' :: after = lead ++ content.toList ++ trail →
        (∀ c ∈ lead, Blank c) → (∀ c ∈ trail, Blank c) →
        mentionsIn content.toList = mentionsIn before ++ entry.digits ++ mentionsIn after ∧
        ∀ member, entry = .member member → member.user_id < 2 ^ 63 →
          ∀ authorID channelID recipients, (member.user_id : ℤ) ∈ recipients →
          (member.user_id : ℤ) ≠ authorID →
          (mentionedUsers authorID recipients before).length < maxMentionsPerMessage →
          ∀ l o, Effects.Program.Path (resolveMentions content authorID channelID recipients) l o →
            ∃ mentioned everyone, o = some (mentioned,everyone) ∧
              (member.user_id : ℤ) ∈ mentioned := by
  obtain ⟨m,before,rest,hm,hsplit,hlen,hcut,hnext⟩ := picked_text hr hp he
  have hfront : utf16 upto = before ++ UInt16.ofNat '@'.toNat :: m.query ∧ utf16 after = rest := by
    refine List.append_inj ?_ ?_
    · rw [← utf16_append]
      exact htext.symm.trans hsplit
    · rw [← hcaret m hm,List.length_append,List.length_cons,hlen]
      omega
  obtain ⟨front,query,rfl,rfl,_⟩ := utf16_split (by decide) hfront.1
  refine ⟨front,query,rfl,?_,fun lead content trail hcontent hlead htrail => ?_⟩
  · rw [hnext,← hfront.2,utf16_append,utf16_append]
    rfl
  · have hfound : mentionsIn content.toList = mentionsIn front ++ entry.digits ++ mentionsIn after := by
      rw [← mentionsIn_trim hlead htrail,← hcontent,List.append_assoc,List.append_assoc,
        ← mentionsIn_token]
      rcases blank_of_cut hcut with rfl | ⟨init,c,rfl,hc⟩
      · rfl
      · rw [List.append_assoc,List.singleton_append,mentionsIn_cut hc,mentionsIn_cut hc]
        rw [ChatHub.mentionsIn_nil,List.append_nil]
    refine ⟨hfound,?_⟩
    rintro member rfl hid authorID channelID recipients hmember hauthor hroom l o hpath
    have hnamed : mentionsIn content.toList =
        mentionsIn front ++ Nat.toDigits 10 member.user_id :: mentionsIn after := by
      rw [hfound,List.append_assoc]
      rfl
    exact ChatHub.mem_resolved hnamed (atoi_toDigits hid) hmember hauthor hroom hpath

theorem picked_mentioned_ann : ∃ before query, ['h','i',' ','@','a','n'] = before ++ '@' :: query ∧
    (looking.insertMentionToken (utf16 (memberToken 7))).text =
      utf16 (before ++ memberToken 7 ++ ' ' :: []) ∧
    ∀ lead (content : String) trail,
      before ++ memberToken 7 ++ ' ' :: [] = lead ++ content.toList ++ trail →
      (∀ c ∈ lead, Blank c) → (∀ c ∈ trail, Blank c) →
      mentionsIn content.toList = mentionsIn before ++ [Nat.toDigits 10 7] ++ mentionsIn [] ∧
      ∀ member, Entry.member ann = .member member → member.user_id < 2 ^ 63 →
        ∀ authorID channelID recipients, (member.user_id : ℤ) ∈ recipients →
          (member.user_id : ℤ) ≠ authorID →
          (mentionedUsers authorID recipients before).length < maxMentionsPerMessage →
          ∀ l o, Effects.Program.Path (resolveMentions content authorID channelID recipients) l o →
            ∃ mentioned everyone, o = some (mentioned,everyone) ∧
              (member.user_id : ℤ) ∈ mentioned :=
  picked_mentioned (runs_after (by rfl) : Runs (Composer.step id) {} looksForAnn _)
    (by rfl : looking.picks id .enter = some (.member ann)) (by rfl) (by rfl) (by rintro m ⟨⟩; rfl)

end MiniDiscord.MentionPicker
