import MiniDiscord.Embeds.Service

/-! # Image tokens that were broadcast

A token that was broadcast has to find an image as long as its row is there. A later fetch may
take the image or the status from the row.
-/
namespace MiniDiscord.Embeds
open Transition

/-- Every token that was broadcast resolves as long as the row it was taken from is there. -/
def TokensResolve (s : State) : Prop :=
  ∀ b ∈ s.sent, b.entry.preview.imageToken ≠ [] →
    ∀ row, s.rows.lookup b.entry.hash = some row → row.id = b.entry.row →
      Resolves s.rows b.entry.preview.imageToken

def Event.stored : Event → Option (CallID × Option Page)
  | .store c page _ _ => some (c,page)
  | _ => none

/-- A page that replaces a preview with a token is a preview with an image. -/
def KeepsImage (s : State) (e : Event) : Prop :=
  ∀ stored ∈ e.stored, ∀ call ∈ s.calls.lookup stored.1, ∀ row ∈ s.rows.lookup call.hash,
    row.status = .ok → row.imageToken ≠ [] → ∃ p ∈ stored.2, p.status = .ok ∧ p.imageURL ≠ ""

instance (s : State) (e : Event) : Decidable (KeepsImage s e) :=
  inferInstanceAs (Decidable (∀ stored ∈ e.stored, ∀ call ∈ s.calls.lookup stored.1,
    ∀ row ∈ s.rows.lookup call.hash, row.status = .ok → row.imageToken ≠ [] →
      ∃ p ∈ stored.2, p.status = .ok ∧ p.imageURL ≠ ""))

/-! ## The upsert -/

variable {s s' : State} {x : CachedPreview}

theorem upsert_spec {rows : GoMap String Row} {record : LinkPreviewRecord} {now : ℤ} {n : ℕ}
    {row : Row} (h : upsertLinkPreview rows record now n = some row) :
    row.urlHash = record.urlHash ∧ row.status = record.status ∧ row.imageURL = record.imageURL ∧
      row.imageToken = upsertToken (rows.lookup record.urlHash) record ∧
      row.id = ((rows.lookup record.urlHash).map Row.id).getD n ∧
      ¬ TokenTaken rows record.urlHash row.imageToken := by
  simp only [upsertLinkPreview] at h
  split at h
  · cases h
  · rename_i htaken
    cases h
    exact ⟨rfl,rfl,rfl,rfl,rfl,htaken⟩

theorem fetchedRecord_spec (hash url : String) (buffer : Option (Fin 16 → UInt8))
    (page : Option Page) :
    (fetchedRecord hash url buffer page).urlHash = hash ∧
      ((fetchedRecord hash url buffer page).imageToken ≠ [] →
        (fetchedRecord hash url buffer page).imageURL ≠ "" ∧
          isImageToken (fetchedRecord hash url buffer page).imageToken = true) := by
  cases page with
  | none => exact ⟨rfl,fun h => absurd rfl h⟩
  | some page =>
    refine ⟨rfl,?_⟩
    simp only [fetchedRecord]
    split
    · exact fun h => absurd rfl h
    · rename_i himage
      intro htoken
      cases buffer with
      | none => exact absurd rfl htoken
      | some buffer => exact ⟨himage,isImageToken_newImageToken buffer⟩

/-- The token of a stored row is the old one or the new one, and both come with an image. -/
theorem upsertToken_spec {rows : GoMap String Row} {hash url : String}
    {buffer : Option (Fin 16 → UInt8)} {page : Option Page}
    (hold : ∀ old, rows.lookup hash = some old → old.imageToken ≠ [] →
      isImageToken old.imageToken = true)
    (h : upsertToken (rows.lookup hash) (fetchedRecord hash url buffer page) ≠ []) :
    (fetchedRecord hash url buffer page).imageURL ≠ "" ∧
      isImageToken (upsertToken (rows.lookup hash) (fetchedRecord hash url buffer page)) = true := by
  have hnew := (fetchedRecord_spec hash url buffer page).2
  cases hrow : rows.lookup hash with
  | none =>
    rw [hrow] at h
    exact hnew h
  | some old =>
    rw [hrow,upsertToken] at h
    rw [upsertToken]
    by_cases himage : (fetchedRecord hash url buffer page).imageURL = ""
    · rw [if_pos himage] at h
      exact absurd rfl h
    · rw [if_neg himage] at h ⊢
      by_cases hnone : old.imageToken = []
      · rw [if_pos hnone] at h ⊢
        exact hnew h
      · rw [if_neg hnone]
        exact ⟨himage,hold old hrow hnone⟩

/-! ## The invariant -/

/-- The row that a preview with a token was taken from, if it is there, still has the token. -/
def Backed (s : State) (x : CachedPreview) : Prop :=
  x.preview.imageToken ≠ [] → x.row < s.nextRow ∧
    ∀ row, s.rows.lookup x.hash = some row → row.id = x.row →
      row.status = .ok ∧ row.imageToken = x.preview.imageToken

structure Well (s : State) : Prop where
  keyed : ∀ hash row, s.rows.lookup hash = some row → row.urlHash = hash ∧ row.id < s.nextRow
  imaged : ∀ hash row, s.rows.lookup hash = some row → row.imageToken ≠ [] →
    row.imageURL ≠ "" ∧ isImageToken row.imageToken = true
  unique : ∀ hash row hash' row', s.rows.lookup hash = some row →
    s.rows.lookup hash' = some row' → row.imageToken ≠ [] →
    row'.imageToken = row.imageToken → hash' = hash
  held : ∀ x, Held s x → Backed s x

theorem toCached_token {record : LinkPreviewRecord} {row : ℕ}
    (h : (toCached record row).preview.imageToken ≠ []) :
    record.status = .ok ∧ (toCached record row).hash = record.urlHash ∧
      (toCached record row).row = row ∧
      (toCached record row).preview.imageToken = record.imageToken := by
  rw [toCached] at h ⊢
  split at h
  · rename_i hok
    rw [if_pos hok]
    exact ⟨hok,rfl,rfl,rfl⟩
  · exact absurd rfl h

theorem backed_of_row {row : Row} (hrow : s.rows.lookup row.urlHash = some row)
    (hlt : row.id < s.nextRow) : Backed s (toCached row.toLinkPreviewRecord row.id) := by
  intro htoken
  obtain ⟨hok,hhash,hid,hcached⟩ := toCached_token htoken
  rw [hhash,hid,hcached]
  refine ⟨hlt,?_⟩
  intro row' hrow' _
  rw [hrow] at hrow'
  obtain rfl := Option.some.inj hrow'
  exact ⟨hok,rfl⟩

theorem Well.backed_known (hs : Well s) (h : Known s x) : Backed s x := by
  cases h with
  | held h => exact hs.held x h
  | none h =>
    rw [h]
    exact fun htoken => absurd rfl htoken
  | row hash row hrow hx =>
    obtain ⟨rfl,hlt⟩ := hs.keyed hash row hrow
    rw [hx]
    exact backed_of_row hrow hlt

theorem Backed.of_rows_eq (h : Backed s x) (hrows : s'.rows = s.rows)
    (hnext : s'.nextRow = s.nextRow) : Backed s' x := by
  intro htoken
  rw [hrows,hnext]
  exact h htoken

/-- A row that is deleted backs nothing any more. -/
theorem Backed.delete {hash : String} (h : Backed s x) (hrows : s'.rows = s.rows.erase hash)
    (hnext : s'.nextRow = s.nextRow) : Backed s' x := by
  intro htoken
  obtain ⟨hlt,hbacked⟩ := h htoken
  rw [hrows,hnext]
  refine ⟨hlt,?_⟩
  intro row hrow
  exact hbacked row (GoMap.lookup_of_erase hrow).2

/-- A row that is stored again keeps what was taken from it, under the guard. -/
theorem Backed.store {hash url : String} {page : Option Page} {buffer : Option (Fin 16 → UInt8)}
    {now : ℤ} {row : Row} (h : Backed s x)
    (hrow : upsertLinkPreview s.rows (fetchedRecord hash url buffer page) now s.nextRow = some row)
    (hguard : ∀ old, s.rows.lookup hash = some old → old.status = .ok → old.imageToken ≠ [] →
      ∃ p ∈ page, p.status = .ok ∧ p.imageURL ≠ "")
    (hrows : s'.rows = s.rows.insert hash row) (hnext : s'.nextRow = s.nextRow + 1) :
    Backed s' x := by
  intro htoken
  obtain ⟨hlt,hbacked⟩ := h htoken
  obtain ⟨-,hstatus,-,htok,hid,-⟩ := upsert_spec hrow
  rw [(fetchedRecord_spec hash url buffer page).1] at htok hid
  rw [hrows,hnext]
  refine ⟨Nat.lt_succ_of_lt hlt,?_⟩
  intro row' hrow' hid'
  rw [GoMap.lookup_insert_eq] at hrow'
  split at hrow'
  · rename_i hhash
    obtain rfl := Option.some.inj hrow'
    cases hold : s.rows.lookup hash with
    | none =>
      -- A new row, which nothing was taken from.
      rw [hold] at hid
      rw [hid] at hid'
      exact absurd hid' (Nat.ne_of_gt hlt)
    | some old =>
      rw [hold] at hid htok
      rw [hid] at hid'
      obtain ⟨hok,holdToken⟩ := hbacked old (by rw [hhash]; exact hold) hid'
      have hne : old.imageToken ≠ [] := by
        rw [holdToken]
        exact htoken
      obtain ⟨p,rfl,hpok,himage⟩ := hguard old hold hok hne
      refine ⟨hstatus.trans hpok,?_⟩
      rw [htok,← holdToken]
      change (if p.imageURL = "" then [] else if old.imageToken = [] then _ else old.imageToken) = _
      rw [if_neg himage,if_neg hne]
  · exact hbacked row' hrow' hid'

/-! ## The steps -/

theorem Well.moves (hs : Well s) (hrows : s'.rows = s.rows) (hnext : s'.nextRow = s.nextRow)
    (hheld : ∀ x, Held s' x → Known s x) : Well s' where
  keyed := by
    rw [hrows,hnext]
    exact hs.keyed
  imaged := by
    rw [hrows]
    exact hs.imaged
  unique := by
    rw [hrows]
    exact hs.unique
  held := fun x hx => (hs.backed_known (hheld x hx)).of_rows_eq hrows hnext

theorem Well.deletes {hash : String} (hs : Well s) (hrows : s'.rows = s.rows.erase hash)
    (hnext : s'.nextRow = s.nextRow) (hheld : ∀ x, Held s' x → Known s x) : Well s' := by
  have hold : ∀ hash' row, s'.rows.lookup hash' = some row → s.rows.lookup hash' = some row := by
    intro hash' row hrow
    rw [hrows] at hrow
    exact (GoMap.lookup_of_erase hrow).2
  refine ⟨?_,?_,?_,?_⟩
  · intro hash' row hrow
    rw [hnext]
    exact hs.keyed hash' row (hold hash' row hrow)
  · exact fun hash' row hrow => hs.imaged hash' row (hold hash' row hrow)
  · exact fun h r h' r' hr hr' => hs.unique h r h' r' (hold h r hr) (hold h' r' hr')
  · exact fun x hx => (hs.backed_known (hheld x hx)).delete hrows hnext

theorem Well.stores {hash url : String} {page : Option Page} {buffer : Option (Fin 16 → UInt8)}
    {now : ℤ} {row : Row} (hs : Well s)
    (hrow : upsertLinkPreview s.rows (fetchedRecord hash url buffer page) now s.nextRow = some row)
    (hguard : ∀ old, s.rows.lookup hash = some old → old.status = .ok → old.imageToken ≠ [] →
      ∃ p ∈ page, p.status = .ok ∧ p.imageURL ≠ "")
    (hrows : s'.rows = s.rows.insert hash row) (hnext : s'.nextRow = s.nextRow + 1)
    (hheld : ∀ x, Held s' x → Held s x ∨ x = toCached row.toLinkPreviewRecord row.id) :
    Well s' := by
  obtain ⟨hkey,-,himageURL,htok,hid,htaken⟩ := upsert_spec hrow
  have hhash := (fetchedRecord_spec hash url buffer page).1
  rw [hhash] at hkey htok hid htaken
  have hlt : row.id < s.nextRow + 1 := by
    rw [hid]
    cases hold : s.rows.lookup hash with
    | none => exact Nat.lt_succ_self s.nextRow
    | some old => exact Nat.lt_succ_of_lt (hs.keyed hash old hold).2
  have hinsert : ∀ {hash' : String} {row' : Row}, s'.rows.lookup hash' = some row' →
      hash' = hash ∧ row' = row ∨ hash' ≠ hash ∧ s.rows.lookup hash' = some row' := by
    intro hash' row' hrow'
    rw [hrows,GoMap.lookup_insert_eq] at hrow'
    split at hrow'
    · rename_i heq
      exact Or.inl ⟨heq,(Option.some.inj hrow').symm⟩
    · rename_i hne
      exact Or.inr ⟨hne,hrow'⟩
  -- No other row has the token of the stored one.
  have hother : ∀ {hash' : String} {row' : Row}, hash' ≠ hash →
      s.rows.lookup hash' = some row' → row.imageToken ≠ [] → row'.imageToken ≠ row.imageToken :=
    fun hne hrow' htoken heq => htaken ⟨htoken,_,(GoMap.mem_keys_iff _ _).mpr ⟨_,hrow'⟩,hne,
      _,hrow',heq⟩
  refine ⟨?_,?_,?_,?_⟩
  · intro hash' row' hrow'
    rw [hnext]
    rcases hinsert hrow' with ⟨rfl,rfl⟩ | ⟨-,hrow'⟩
    · exact ⟨hkey,hlt⟩
    · obtain ⟨hkey',hlt'⟩ := hs.keyed hash' row' hrow'
      exact ⟨hkey',Nat.lt_succ_of_lt hlt'⟩
  · intro hash' row' hrow' htoken
    rcases hinsert hrow' with ⟨rfl,rfl⟩ | ⟨-,hrow'⟩
    · rw [htok] at htoken
      rw [himageURL,htok]
      exact upsertToken_spec (fun old hold hne => (hs.imaged _ old hold hne).2) htoken
    · exact hs.imaged hash' row' hrow' htoken
  · intro h r h' r' hr hr' htoken hsame
    rcases hinsert hr with ⟨rfl,rfl⟩ | ⟨hne,hr⟩
    · rcases hinsert hr' with ⟨rfl,rfl⟩ | ⟨hne',hr'⟩
      · rfl
      · exact absurd hsame (hother hne' hr' htoken)
    · rcases hinsert hr' with ⟨rfl,rfl⟩ | ⟨hne',hr'⟩
      · exact absurd hsame.symm (hother hne hr (by rw [hsame]; exact htoken))
      · exact hs.unique h r h' r' hr hr' htoken hsame
  · intro x hx
    rcases hheld x hx with hx | rfl
    · exact (hs.held x hx).store hrow hguard hrows hnext
    · apply backed_of_row
      · rw [hrows,hkey,GoMap.lookup_insert_eq,if_pos rfl]
      · rw [hnext]
        exact hlt

theorem Well.step {cfg : Config} {hashOf : String → String} {e : Event} (hs : Well s)
    (hguard : KeepsImage s e) (h : step cfg hashOf s e = some s') : Well s' := by
  cases does_of_step h with
  | moves hrows hnext hheld => exact hs.moves hrows hnext hheld
  | stores call row hcall hrow hrows hnext hheld =>
    exact hs.stores hrow (hguard _ rfl call hcall) hrows hnext hheld
  | deletes hrows hnext hheld => exact hs.deletes hrows hnext hheld

theorem well_init : Well init where
  keyed := by
    intro hash row h
    cases (Finmap.lookup_empty hash).symm.trans h
  imaged := by
    intro hash row h
    cases (Finmap.lookup_empty hash).symm.trans h
  unique := by
    intro hash row hash' row' h
    cases (Finmap.lookup_empty hash).symm.trans h
  held := by
    intro x h
    cases h with
    | cache hash h => cases (Finmap.lookup_empty hash).symm.trans h
    | call c call hc h => cases (Finmap.lookup_empty c).symm.trans hc
    | worker w h => cases h
    | sent b hb h => cases hb

theorem Well.tokensResolve (hs : Well s) : TokensResolve s := by
  intro b hb htoken row hrow hid
  obtain ⟨-,hbacked⟩ := hs.held b.entry (.sent b hb rfl) htoken
  obtain ⟨hok,hrowToken⟩ := hbacked row hrow hid
  have hne : row.imageToken ≠ [] := by
    rw [hrowToken]
    exact htoken
  obtain ⟨himage,hvalid⟩ := hs.imaged _ row hrow hne
  rw [← hrowToken]
  refine ⟨hvalid,⟨row,hne,_,hrow,rfl⟩,?_⟩
  rintro row' ⟨-,hash',hrow',htoken'⟩
  obtain rfl := hs.unique _ row hash' row' hrow hrow' hne htoken'
  rw [hrow] at hrow'
  obtain rfl := Option.some.inj hrow'
  exact ⟨hok,himage⟩

/-- As long as each page that replaces a preview with a token is a preview with an image, every
token that was broadcast resolves until its row is deleted. -/
theorem tokens_resolve (cfg : Config) (hashOf : String → String) {es : List Event}
    (h : RunsWhen (step cfg hashOf) KeepsImage init es s) : TokensResolve s :=
  (h.invariant well_init fun hs hguard he => hs.step hguard he).tokensResolve

/-! ## Two runs -/

def exampleURL : String := "http://a.b"
def exampleConfig : Config := ⟨10,5⟩
def examplePage : Page := ⟨.ok,"title","","","http://a.b/i"⟩
def exampleJob : Job := ⟨1,1,[2]⟩
def examplePreview : CachedPreview :=
  ⟨exampleURL,true,⟨exampleURL,"title","","",newImageToken (some fun _ => 0)⟩,0⟩

/-- A preview with an image is fetched and broadcast. When it is no longer fresh the link is
fetched again, with the given outcome. -/
def refetched (page : Option Page) : List Event :=
  [.take 0 exampleJob exampleURL,.lookUp 0,.read 0 0,.share 0,
    .store 0 (some examplePage) (some fun _ => 0) 0,.remember 0,.receive 0,.link 0,.broadcast 0,
    .remove 0,.expire exampleURL,.take 0 exampleJob exampleURL,.lookUp 0,.read 0 100,.share 0,
    .store 1 page (some fun _ => 1) 100]

theorem tokens_resolve_refetched :
    TokensResolve (after (step exampleConfig id) init (refetched (some examplePage))) := by
  have hruns : RunsWhen (step exampleConfig id) KeepsImage init (refetched (some examplePage))
      (after (step exampleConfig id) init (refetched (some examplePage))) :=
    runsWhen_after (by decide +kernel)
  exact tokens_resolve exampleConfig id hruns

theorem not_resolves {rows : GoMap String Row} {token : Token}
    (h : ∀ hash ∈ rows.keys, ∀ row ∈ rows.lookup hash, row.imageToken ≠ token) :
    ¬ Resolves rows token := by
  rintro ⟨-,⟨row,-,hash,hrow,htoken⟩,-⟩
  exact h hash ((GoMap.mem_keys_iff rows hash).mpr ⟨row,hrow⟩) row hrow htoken

/-- The second fetch fails and takes the token that was broadcast. -/
theorem failed_refetch_takes_token : ¬ ∀ (cfg : Config) (hashOf : String → String)
    (es : List Event) (s : State), Runs (step cfg hashOf) init es s → TokensResolve s := by
  intro h
  have hruns : Runs (step exampleConfig id) init (refetched none)
      (after (step exampleConfig id) init (refetched none)) := runs_after (by decide +kernel)
  have hresolves := h exampleConfig id (refetched none) _ hruns
  have hsent : ⟨exampleJob,examplePreview⟩ ∈
      (after (step exampleConfig id) init (refetched none)).sent := by
    decide +kernel
  have hrow : (after (step exampleConfig id) init (refetched none)).rows.lookup exampleURL =
      some ⟨fetchedRecord exampleURL exampleURL none none,100,0⟩ := by
    decide +kernel
  have hgone := hresolves ⟨exampleJob,examplePreview⟩ hsent (by decide) _ hrow rfl
  exact not_resolves (by decide +kernel) hgone

end MiniDiscord.Embeds
