import MiniDiscord.Links.Rendering
import MiniDiscord.Links.Words
import MiniDiscord.Text.Unicode

/-! # The links of the server and of the client

The server extracts the links of a message for its previews, the client shows them.
-/
namespace MiniDiscord.Links
open Matches Trimming Coding Unicode

/-- `\s` of the server. -/
def goSpace (n : ℕ) : Bool := [0x09,0x0A,0x0C,0x0D,0x20].contains n

def maxScannedURLs : ℕ := 8

def urlRegex : Matcher UInt8 := urlMatcher UInt8.toNat goSpace

def extractURLs (content : List UInt8) : List (List UInt8) :=
  (((findAll urlRegex content).take maxScannedURLs).map trimURLTail).filter fun url => !url.isEmpty

def Node.href : Node → Option Text
  | .link href => some href
  | _ => none

/-- The addresses of the links among the nodes of a message. -/
def hrefs (parts : List Part) : List Text := parts.filterMap fun part => part.node.href

/-! ## The links that are shown -/
section
variable {Number : Type*} {number : Text → Number} {decimal : Number → Text}
  {membersById : Number → Option (ServerMember Number)} {content text : Text} {s s' : Scan}

theorem hrefs_append (parts parts' : List Part) :
    hrefs (parts ++ parts') = hrefs parts ++ hrefs parts' := List.filterMap_append

theorem hrefs_fragment (s : Scan) (i : ℕ) (text : Text) : hrefs (fragmentUpTo s i text) = [] := by
  rw [fragmentUpTo]
  split <;> rfl

/-- No link begins among characters other than `h`. -/
theorem findAll_skip {n : ℕ} (h : ∀ u ∈ text.take n, u ≠ 0x68) :
    findAll linkPattern text = findAll linkPattern (text.drop n) := by
  apply findAll_drop
  intro j hj
  cases hdrop : text.drop j with
  | nil => exact linkPattern.len_nil
  | cons u rest =>
    apply linkPattern_cons
    apply h u
    have hget : text[j]? = some u := by rw [← List.head?_drop,hdrop,List.head?_cons]
    exact List.mem_iff_getElem?.mpr ⟨j,by rw [List.getElem?_take_of_lt hj,hget]⟩

/-- The links at a token are what its node shows, and the links behind it. -/
theorem findAll_token {node : Node} (hnode : NodeOf text node) :
    (findAll linkPattern text).map trimUrlTail = node.href.toList ++
      (findAll linkPattern (text.drop (tokenPattern.len text))).map trimUrlTail := by
  cases hnode with
  | everyone htoken =>
    rw [findAll_skip (n := tokenPattern.len text)]
    · rfl
    · rw [htoken]
      rintro u hu rfl
      exact absurd hu (by decide)
  | mention label hmention hmentionLen =>
    rw [findAll_skip (n := tokenPattern.len text)]
    · rfl
    · rw [hmentionLen,(mentionLength_spec hmention).2.2]
      intro u hu
      simp only [List.mem_append,mentionOpening,List.mem_cons,List.not_mem_nil,or_false] at hu
      rcases hu with ((rfl | rfl) | hu) | rfl
      · decide
      · decide
      · have hdigit : digit u = true := List.mem_takeWhile_imp hu
        rintro rfl
        exact absurd hdigit (by decide)
      · decide
  | link hlink hlinkLen =>
    rw [findAll_match hlink,hlinkLen]
    rfl

theorem hrefs_step (h : scanStep number decimal membersById content s = some s') :
    hrefs s'.parts ++ (findAll linkPattern (content.drop s'.regexIndex)).map trimUrlTail =
      hrefs s.parts ++ (findAll linkPattern (content.drop s.regexIndex)).map trimUrlTail := by
  obtain ⟨i,node,hbefore,-,hnode,hregex,-,-,hparts⟩ := scanStep_cases h
  have hskip : findAll linkPattern (content.drop s.regexIndex) =
      findAll linkPattern (content.drop (s.regexIndex + i)) := by
    rw [← List.drop_drop]
    apply findAll_drop
    intro j hj
    rw [List.drop_drop]
    exact linkPattern_of_no_token (hbefore j hj)
  have hsingle : hrefs [⟨s.regexIndex + i,node⟩] = node.href.toList := by
    rw [hrefs,List.filterMap_cons,List.filterMap_nil]
    cases node.href <;> rfl
  rw [hskip,findAll_token hnode,List.drop_drop,← hregex,hparts,hrefs_append,hrefs_append,
    hrefs_fragment,List.append_nil,hsingle,List.append_assoc]

theorem hrefs_loop {fuel : ℕ}
    (h : scanLoop number decimal membersById content fuel s = some s') :
    hrefs s'.parts =
      hrefs s.parts ++ (findAll linkPattern (content.drop s.regexIndex)).map trimUrlTail := by
  induction fuel generalizing s with
  | zero => cases h
  | succ fuel ih =>
    rw [scanLoop] at h
    cases hstep : scanStep number decimal membersById content s with
    | none =>
      rw [hstep] at h
      obtain rfl := Option.some.inj h
      have hnone : findAll linkPattern (content.drop s.regexIndex) = [] := by
        rw [findAll_drop (content.drop s.regexIndex).length,List.drop_length]
        · exact findAll_nil _
        · intro j _
          rw [List.drop_drop]
          exact linkPattern_of_no_token (scanStep_none hstep j)
      rw [hnone,List.map_nil,List.append_nil]
    | some next =>
      rw [hstep] at h
      rw [ih h]
      exact hrefs_step hstep

/-- The links that are shown are the trimmed matches of the pattern of a link alone. -/
theorem hrefs_render {parts : List Part}
    (h : renderMessageContent number decimal membersById content = some parts) :
    hrefs parts = (findAll linkPattern content).map trimUrlTail := by
  rw [renderMessageContent,Option.map_eq_some_iff] at h
  obtain ⟨s,hloop,rfl⟩ := h
  rw [hrefs_append,hrefs_fragment,List.append_nil,hrefs_loop hloop]
  rfl

end
/-! ## Both sides on the characters of a text -/

def charTrim (url : List Char) : List Char :=
  trimTail (fun c => trailingPunctuation.contains c.toNat) '(' ')' url

def charMatches (space : ℕ → Bool) (text : List Char) : List (List Char) :=
  findAll (urlMatcher Char.toNat space) text

theorem punctuation_lt {n : ℕ} (h : trailingPunctuation.contains n = true) : n < 128 := by
  have hmem : n ∈ trailingPunctuation := by simpa using h
  simp only [trailingPunctuation,List.mem_cons,List.not_mem_nil,or_false] at hmem
  omega

theorem utf8_trim (url : List Char) : trimURLTail (utf8 url) = utf8 (charTrim url) :=
  utf8_transparent.trimTail_flatMap rfl rfl rfl rfl
    (fun _ hn => decide_eq_true (punctuation_lt hn)) url

theorem firstPlane_of_lt {n : ℕ} (h : n < 128) : firstPlane n = true :=
  decide_eq_true (by omega)

theorem utf16_trim (url : List Char) : trimUrlTail (utf16 url) = utf16 (charTrim url) :=
  utf16_transparent.trimTail_flatMap rfl rfl rfl rfl
    (fun _ hn => firstPlane_of_lt (punctuation_lt hn)) url

theorem goSpace_lt {n : ℕ} (h : goSpace n = true) : n < 128 := by
  have hmem : n ∈ [0x09,0x0A,0x0C,0x0D,0x20] := by simpa [goSpace] using h
  simp only [List.mem_cons,List.not_mem_nil,or_false] at hmem
  omega

theorem jsSpace_firstPlane {n : ℕ} (h : jsSpace n = true) : firstPlane n = true := by
  rw [jsSpace,Bool.or_eq_true,decide_eq_true_iff] at h
  apply decide_eq_true
  rcases h with h | h
  · have hmem : n ∈ [0x09,0x0A,0x0B,0x0C,0x0D,0x20,0xA0,0x1680,0x2028,0x2029,0x202F,0x205F,
      0x3000,0xFEFF] := by simpa using h
    simp only [List.mem_cons,List.not_mem_nil,or_false] at hmem
    omega
  · omega

theorem utf8_matches (text : List Char) :
    findAll urlRegex (utf8 text) = (charMatches goSpace text).map utf8 :=
  findAll_flatMap (urlMatcher_follows utf8_transparent (fun _ hn => decide_eq_true hn)
    fun _ hn => decide_eq_true (goSpace_lt hn)) text

theorem utf16_matches (text : List Char) :
    findAll linkPattern (utf16 text) = (charMatches jsSpace text).map utf16 :=
  findAll_flatMap (urlMatcher_follows utf16_transparent (fun _ hn => firstPlane_of_lt hn)
    fun _ hn => jsSpace_firstPlane hn) text

theorem goSpace_js {n : ℕ} (h : goSpace n = true) : jsSpace n = true := by
  have hmem : n ∈ [0x09,0x0A,0x0C,0x0D,0x20] := by simpa [goSpace] using h
  simp only [List.mem_cons,List.not_mem_nil,or_false] at hmem
  rcases hmem with rfl | rfl | rfl | rfl | rfl <;> decide

theorem schemes_inUrl {space : ℕ → Bool}
    (h : (schemes.all fun scheme => scheme.all fun n => inUrl space n) = true) :
    ∀ scheme ∈ schemes, ∀ n ∈ scheme, inUrl space n = true :=
  fun scheme hscheme n hn =>
    List.all_eq_true.mp (List.all_eq_true.mp h scheme hscheme) n hn

theorem goSchemes : ∀ scheme ∈ schemes, ∀ n ∈ scheme, inUrl goSpace n = true :=
  schemes_inUrl (by decide)

theorem jsSchemes : ∀ scheme ∈ schemes, ∀ n ∈ scheme, inUrl jsSpace n = true :=
  schemes_inUrl (by decide)

/-- The trim stops at a blank of the client at the latest. -/
theorem mem_charTrim {url : List Char} {c : Char} (hc : c ∈ url)
    (hspace : jsSpace c.toNat = true) : c ∈ charTrim url := by
  obtain ⟨front,rest,rfl⟩ := List.append_of_mem hc
  have hpunct : trailingPunctuation.contains c.toNat = false := by
    by_contra hpunct
    have hmem : c.toNat ∈ trailingPunctuation := by simpa using hpunct
    simp only [trailingPunctuation,List.mem_cons,List.not_mem_nil,or_false] at hmem
    rcases hmem with h | h | h | h | h | h | h | h <;> rw [h] at hspace <;>
      exact absurd hspace (by decide)
  have hclosing : c ≠ ')' := by
    rintro rfl
    exact absurd hspace (by decide)
  have hkeep : ∃ kept, charTrim (front ++ c :: rest) = front ++ c :: kept ∧ kept <+: rest :=
    trimTail_keeps (by decide) hpunct hclosing
  obtain ⟨kept,hkept,-⟩ := hkeep
  rw [hkept]
  exact List.mem_append_right _ List.mem_cons_self

theorem charTrim_subset {url : List Char} {c : Char} (hc : c ∈ charTrim url) : c ∈ url := by
  have hsplit : ∃ tail, url = charTrim url ++ tail ∧
      ∀ d ∈ tail, trailingPunctuation.contains d.toNat = true ∨ d = ')' :=
    trimTail_removed _ (by decide) url
  obtain ⟨tail,htail,-⟩ := hsplit
  rw [htail]
  exact List.mem_append_left _ hc

/-- A link begins with an `h`, which the trim leaves. -/
theorem charTrim_ne_nil {space : ℕ → Bool} {text url : List Char}
    (h : url ∈ charMatches space text) : charTrim url ≠ [] := by
  obtain ⟨t,-,hlen,rfl⟩ := mem_findAll h
  obtain ⟨n,hn⟩ := Nat.exists_eq_succ_of_ne_zero hlen
  cases t with
  | nil => exact absurd (Matcher.len_nil _) hlen
  | cons c rest =>
    have hcode : c.toNat = 0x68 := by
      by_contra hne
      have hscheme := (urlMatcher_spec hlen).1
      rw [List.map_cons,schemeLength_cons _ hne] at hscheme
      exact hscheme rfl
    have hpunct : trailingPunctuation.contains c.toNat = false := by
      rw [hcode]
      decide
    have hclosing : c ≠ ')' := by
      rintro rfl
      exact absurd hcode (by decide)
    have hkeep : ∃ kept, charTrim ([] ++ c :: rest.take n) = [] ++ c :: kept ∧
        kept <+: rest.take n := trimTail_keeps (by decide) hpunct hclosing
    obtain ⟨kept,hkept,-⟩ := hkeep
    rw [List.nil_append] at hkept
    rw [hn,List.take_succ_cons,hkept]
    exact List.cons_ne_nil c kept

theorem extractURLs_utf8 (text : List Char) :
    extractURLs (utf8 text) =
      (((charMatches goSpace text).take maxScannedURLs).map charTrim).map utf8 := by
  have hsame : ((charMatches goSpace text).take maxScannedURLs).map (trimURLTail ∘ utf8) =
      ((charMatches goSpace text).take maxScannedURLs).map (utf8 ∘ charTrim) :=
    List.map_congr_left fun url _ => utf8_trim url
  rw [extractURLs,utf8_matches,← List.map_take,List.map_map,hsame,List.map_map,
    List.filter_eq_self]
  intro url hurl
  obtain ⟨found,hfound,rfl⟩ := List.mem_map.mp hurl
  have hne := charTrim_ne_nil (List.mem_of_mem_take hfound)
  rw [Bool.not_eq_true',List.isEmpty_eq_false_iff]
  intro hnil
  have hlen : ((charTrim found).flatMap String.utf8EncodeChar).length = 0 :=
    List.length_eq_zero_iff.mpr hnil
  exact hne ((flatMap_length_eq_zero utf8_transparent.nonempty).mp hlen)

theorem matches_utf16 (text : List Char) :
    (findAll linkPattern (utf16 text)).map trimUrlTail =
      ((charMatches jsSpace text).map charTrim).map utf16 := by
  rw [utf16_matches,List.map_map,List.map_map]
  exact List.map_congr_left fun url _ => utf16_trim url

/-- A blank of the client has one unit, and no other character has it. -/
theorem mem_of_utf16_eq {text text' : List Char} {c : Char} (h : utf16 text = utf16 text')
    (hc : c ∈ text) (hspace : jsSpace c.toNat = true) : c ∈ text' := by
  have hplane := jsSpace_firstPlane hspace
  have hcode : (UInt16.ofNat c.toNat).toNat = c.toNat := by
    have hlt := (decide_eq_true_iff.mp hplane).1
    rw [UInt16.toNat_ofNat']
    omega
  have hcount : ∀ t : List Char, (utf16 t).count (UInt16.ofNat c.toNat) = t.count c :=
    fun t => utf16_transparent.count_flatMap hcode hplane t
  have hpos : 0 < text.count c := List.count_pos_iff.mpr hc
  rw [← hcount,h,hcount] at hpos
  exact List.count_pos_iff.mp hpos

/-! ## When both sides agree -/
section
variable {Number : Type} (number : Text → Number) (decimal : Number → Text)
  (membersById : Number → Option (ServerMember Number))

/-- The links that the server extracts are the first ones that the client shows. -/
def LinksAgree (text : List Char) : Prop :=
  ∃ (links : List (List Char)) (parts : List Part),
    extractURLs (utf8 text) = links.map utf8 ∧
    renderMessageContent number decimal membersById (utf16 text) = some parts ∧
    (hrefs parts).take maxScannedURLs = links.map utf16

variable {number decimal membersById}

theorem linksAgree_iff_matches (text : List Char) :
    LinksAgree number decimal membersById text ↔
      (((charMatches jsSpace text).take maxScannedURLs).map charTrim).map utf16 =
        (((charMatches goSpace text).take maxScannedURLs).map charTrim).map utf16 := by
  have hrender : ∃ parts, renderMessageContent number decimal membersById (utf16 text) =
      some parts := by
    obtain ⟨s,hloop,-⟩ := scan_ends number decimal membersById (utf16 text)
    exact ⟨_,by rw [renderMessageContent,hloop,Option.map_some]⟩
  obtain ⟨parts,hparts⟩ := hrender
  have hrefs : (hrefs parts).take maxScannedURLs =
      (((charMatches jsSpace text).take maxScannedURLs).map charTrim).map utf16 := by
    rw [hrefs_render hparts,matches_utf16,List.map_take,List.map_take]
  constructor
  · rintro ⟨links,parts',hgo,hparts',hjs⟩
    rw [hparts] at hparts'
    obtain rfl := Option.some.inj hparts'
    have hlinks : links = ((charMatches goSpace text).take maxScannedURLs).map charTrim := by
      rw [extractURLs_utf8] at hgo
      exact (List.map_injective_iff.mpr (fun _ _ h => utf8_injective h) hgo).symm
    rw [← hrefs,hjs,hlinks]
  · intro h
    exact ⟨_,parts,extractURLs_utf8 text,hparts,hrefs.trans h⟩

/-- The sides agree exactly when no address among the first ones that the server's white space
leaves whole has a blank of the client. -/
theorem linksAgree_iff (number : Text → Number) (decimal : Number → Text)
    (membersById : Number → Option (ServerMember Number)) (text : List Char) :
    LinksAgree number decimal membersById text ↔
      ∀ address ∈ (addresses Char.toNat goSpace text).take maxScannedURLs,
        ∀ c ∈ address, jsSpace c.toNat = false := by
  rw [linksAgree_iff_matches,← findAll_eq_addresses goSchemes]
  constructor
  · intro h address haddress c hc
    by_contra hspace
    rw [Bool.not_eq_false] at hspace
    have hmem : utf16 (charTrim address) ∈
        (((charMatches goSpace text).take maxScannedURLs).map charTrim).map utf16 :=
      List.mem_map_of_mem (List.mem_map_of_mem haddress)
    rw [← h] at hmem
    obtain ⟨url,hurl,heq⟩ := List.mem_map.mp hmem
    obtain ⟨found,hfound,rfl⟩ := List.mem_map.mp hurl
    have hshown : c ∈ found :=
      charTrim_subset (mem_of_utf16_eq heq.symm (mem_charTrim hc hspace) hspace)
    have hin := (inUrl_of_match jsSchemes (List.mem_of_mem_take hfound)).1 c hshown
    rw [inUrl,hspace] at hin
    cases hin
  · intro h
    have hsame : (charMatches jsSpace text).take maxScannedURLs =
        (charMatches goSpace text).take maxScannedURLs :=
      take_findAll_wider (fun _ hn => goSpace_js hn) maxScannedURLs text h
    rw [hsame]

/-- The text `https://a` and `b` with a no-break space between: the server's link holds the
space and the client's ends before it. -/
theorem noBreakSpace_disagrees :
    ¬ ∀ text, LinksAgree (fun _ => ()) (fun _ => []) (fun _ => none) text := by
  intro h
  have hsame := (linksAgree_iff_matches _).mp (h ['h','t','t','p','s',':','/','/','a',Char.ofNat 0xA0,'b'])
  exact absurd hsame (by decide)

end
end MiniDiscord.Links
