import MiniDiscord.History.Walks
import MiniDiscord.Paging.Prefixes
import MiniDiscord.Text.Unicode

/-! # Message search

The query of the storage, the command of the hub and the request of `ChatSocket`. What the
text search makes of a query is a parameter; the texts of the hits play no part.
-/
namespace MiniDiscord.MessageHistory
open ChatHub SfuTrack Decimal Rfc3339 Paging

/-! ## The storage -/

/-- A row of `messages`, and whether it has attachments and previews. -/
structure MessageRow where
  channelID : ChannelID
  authorID : Option UserID
  content : List Char
  hasFile : Bool
  hasLink : Bool

/-- A channel of a conversation has no server. -/
structure ChannelRow where
  serverID : Option ServerID
  type : ChannelType

/-- The messages in the order `(created_at, id)`. -/
structure Table where
  rows : List Key
  message : Key → MessageRow
  channel : ChannelID → ChannelRow
  sorted : rows.Pairwise (· < ·)
  sendable : ∀ k ∈ rows, Sendable k ∧ 0 < (message k).channelID ∧ (message k).channelID < 2 ^ 63

structure MessageSearchParams where
  query : List Char
  channelID : ChannelID
  serverID : ServerID
  authorID : UserID
  hasFile : Bool
  hasLink : Bool
  before : Option Timestamp
  after : Option Timestamp
  limit : ℤ
  cursor : Option WsMessageCursor

/-- What the column without a zone is compared with. -/
def Timestamp.local (t : Timestamp) : ℤ := t.nanos + t.offset * nanosPerMinute

/-- `websearch_to_tsquery` of the query, and whether it matches the text of a row. -/
abbrev TextSearch := List Char → List Char → Bool

namespace Table
variable (search : TextSearch) (t : Table)

/-- The conditions of the query, but for the cursor. -/
def selects (params : MessageSearchParams) (k : Key) : Bool :=
  search params.query (t.message k).content &&
    (if 0 < params.serverID then
      decide ((t.channel (t.message k).channelID).serverID = some params.serverID ∧
        (t.channel (t.message k).channelID).type = .text)
    else decide ((t.message k).channelID = params.channelID)) &&
    (decide (params.authorID ≤ 0) || decide ((t.message k).authorID = some params.authorID)) &&
    (!params.hasFile || (t.message k).hasFile) &&
    (!params.hasLink || (t.message k).hasLink) &&
    params.before.all (fun b => decide ((ofLex k).1 < Timestamp.local b)) &&
    params.after.all (fun a => decide (Timestamp.local a < (ofLex k).1))

/-- The hits, newest first, and the cursor of the last one if there are more. -/
def searchMessages (params : MessageSearchParams) : List Key × Option WsMessageCursor × Bool :=
  let limit := clampLimit params.limit.toNat 25 50
  let rows := (t.rows.filter (fun k => t.selects search params k &&
    (params.cursor.map WsMessageCursor.key).all (fun c => decide (k < c)))).reverse
  let (hits,hasMore) := limited rows limit
  let nextCursor :=
    if hasMore = true then hits.getLast?.map (fun k => cursorAt (t.message k).channelID k) else none
  (hits,nextCursor,hasMore)

end Table

/-! ## The hub -/

structure WsSearchMessagesRequest where
  query : List Char
  channelID : ChannelID
  serverID : ServerID
  authorID : UserID
  hasFile : Bool
  hasLink : Bool
  before : Option Bytes
  after : Option Bytes
  limit : ℤ
  cursor : Bytes

structure WsSearchMessagesResponse where
  hits : List Key
  nextCursor : Bytes
  hasMore : Bool
  deriving DecidableEq

/-- `strings.TrimSpace`, and `trim` with another notion of space. -/
def trimSpace (space : Char → Bool) (text : List Char) : List Char :=
  ((text.dropWhile space).reverse.dropWhile space).reverse

/-- `time.Parse` of a date that was given. -/
def parseDate (err : String) : Option Bytes → Except String (Option Timestamp)
  | none => .ok none
  | some text =>
    match Rfc3339.parse text with
    | none => .error err
    | some t => .ok (some t)

/-- The parameters of the storage, but for the cursor. -/
def WsSearchMessagesRequest.params (payload : WsSearchMessagesRequest) :
    Except String MessageSearchParams := do
  let before ← parseDate "invalid before date" payload.before
  let after ← parseDate "invalid after date" payload.after
  return ⟨trimSpace isSpace payload.query,payload.channelID,payload.serverID,payload.authorID,
    payload.hasFile,payload.hasLink,before,after,payload.limit,none⟩

/-- What the access check of the scope answers. -/
def accessChecked (payload : WsSearchMessagesRequest) : Option Bool → Except String Unit
  | none =>
    if 0 < payload.serverID then .error "failed to check server membership"
    else .error "failed to check channel access"
  | some false => .error "access denied"
  | some true => .ok ()

/-- No cursor is no text. -/
def encodeNextCursor : Option WsMessageCursor → Except String Bytes
  | none => .ok []
  | some cursor =>
    match encodeWsMessageCursor cursor with
    | none => .error "failed to encode cursor"
    | some raw => .ok raw

/-- The check may fail or refuse, and the query may fail. -/
def Hub.searchMessages (search : TextSearch) (t : Table) (access : Option Bool) (fails : Bool)
    (payload : WsSearchMessagesRequest) : Except String WsSearchMessagesResponse :=
  if (trimSpace isSpace payload.query).length < 2 then .ok ⟨[],[],false⟩
  else if payload.serverID ≤ 0 ∧ payload.channelID ≤ 0 then
    .error "channel_id or server_id is required"
  else do
    accessChecked payload access
    let params ← payload.params
    match decodeWsMessageCursor payload.cursor with
    | none => .error "invalid cursor"
    | some cursor =>
      if fails = true then .error "search failed"
      else
        let (hits,nextCursor,hasMore) := t.searchMessages search { params with cursor := cursor }
        let nextCursorRaw ← encodeNextCursor nextCursor
        return ⟨hits,nextCursorRaw,hasMore⟩

/-! ## `ChatSocket` -/

inductive SearchScope where
  | channel
  | server
  deriving DecidableEq

/-- A filter that is not set is none, or empty. -/
structure SearchFilters where
  authorId : Option UserID
  hasFile : Bool
  hasLink : Bool
  before : Bytes
  after : Bytes
  deriving DecidableEq

structure Search where
  query : List Char
  scope : SearchScope
  scopeId : ℤ
  filters : SearchFilters
  deriving DecidableEq

def given (text : Bytes) : Option Bytes := if text = [] then none else some text

def Search.payload (s : Search) (cursor : Bytes) : WsSearchMessagesRequest where
  query := s.query
  channelID := if s.scope = .server then 0 else s.scopeId
  serverID := if s.scope = .server then s.scopeId else 0
  authorID := s.filters.authorId.getD 0
  hasFile := s.filters.hasFile
  hasLink := s.filters.hasLink
  before := given s.filters.before
  after := given s.filters.after
  limit := 25
  cursor := cursor

/-! ## What a search is answered with -/

/-- The messages that a search is for; a query that is too short is for none. -/
def wanted (search : TextSearch) (t : Table) (s : Search) : Set Key :=
  {k | 2 ≤ (trimSpace isSpace s.query).length ∧
    ∃ params, (s.payload []).params = .ok params ∧ k ∈ t.rows ∧ t.selects search params k = true}

/-- The text of a cursor that leads on from the row, or nowhere. -/
def Continues (raw : Bytes) (next : Option Key) : Prop :=
  (decodeWsMessageCursor raw).map (Option.map WsMessageCursor.key) = some next

/-- A page of what was found after a row, and the row that its cursor leads on from. -/
def HitsAfter (always ever : Set Key) (after : Option Key) (response : WsSearchMessagesResponse) : Prop :=
  ∃ next, Found (· > ·) always ever after ⟨response.hits,next⟩ ∧
    response.hasMore = next.isSome ∧ Continues response.nextCursor next

variable {search : TextSearch} {t : Table} {s : Search} {raw : Bytes} {after : Option Key}
variable {access : Option Bool} {fails : Bool} {response : WsSearchMessagesResponse}

theorem continues_nil : Continues [] none := rfl

theorem HitsAfter.mono {always always' ever ever' : Set Key} (h : HitsAfter always ever after response)
    (halways : always' ⊆ always) (hever : ever ⊆ ever') : HitsAfter always' ever' after response := by
  obtain ⟨next,hfound,hrest⟩ := h
  exact ⟨next,hfound.mono halways hever,hrest⟩

theorem params_payload (s : Search) (raw : Bytes) : (s.payload raw).params = (s.payload []).params := rfl

/-- The text of a row's cursor leads on from the row. -/
theorem encodeNextCursor_row {channelID : ChannelID} {k : Key} (h0 : 0 < channelID)
    (hlt : channelID < 2 ^ 63) (hk : Sendable k) :
    ∃ raw, encodeNextCursor (some (cursorAt channelID k)) = .ok raw ∧ Continues raw (some k) := by
  obtain ⟨raw,henc,-,hdec⟩ := decode_encodeWsMessageCursor (ok_cursorAt h0 hlt hk)
  refine ⟨raw,?_,?_⟩
  · simp only [encodeNextCursor, henc]
  · simp only [Continues, hdec, Option.map_some, key_cursorAt]

/-- The rows of a page are those that the query selects. -/
theorem Table.searchMessages_found (search : TextSearch) (t : Table) (params : MessageSearchParams) :
    ∃ next, Found (· > ·) {k | k ∈ t.rows ∧ t.selects search params k = true}
        {k | k ∈ t.rows ∧ t.selects search params k = true} (params.cursor.map WsMessageCursor.key)
        ⟨(t.searchMessages search params).1,next⟩ ∧
      (t.searchMessages search params).2.1 =
        next.map (fun k => cursorAt (t.message k).channelID k) ∧
      (t.searchMessages search params).2.2 = next.isSome := by
  have hpos : 0 < clampLimit params.limit.toNat 25 50 := clampLimit_pos (by omega) (by omega)
  have hrows := reverse_sorted t.sorted (fun k => t.selects search params k &&
    (params.cursor.map WsMessageCursor.key).all (fun c => decide (k < c)))
  refine ⟨nextOf _ (clampLimit params.limit.toNat 25 50),?_,?_,nextOf_isSome _ hpos⟩
  · have hmem : ∀ k, k ∈ (t.rows.filter (fun k => t.selects search params k &&
        (params.cursor.map WsMessageCursor.key).all (fun c => decide (k < c)))).reverse ↔
        k ∈ (t.rows.filter (t.selects search params)).toFinset ∧
          Past (· > ·) (params.cursor.map WsMessageCursor.key) k := by
      intro k
      rw [List.mem_reverse,List.mem_filter,List.mem_toFinset,List.mem_filter,Bool.and_eq_true,
        and_assoc]
      exact and_congr_right (fun _ => and_congr_right (fun _ =>
        all_iff_past (fun _ => decide_eq_true_iff)))
    have hanswers := answers_limited hpos hrows hmem
    have hset : ((t.rows.filter (t.selects search params)).toFinset : Set Key) =
        {k | k ∈ t.rows ∧ t.selects search params k = true} := by
      ext k
      rw [Finset.mem_coe,List.mem_toFinset,List.mem_filter]
      exact Iff.rfl
    rw [← hset]
    exact hanswers.toFound
  · unfold nextOf searchMessages
    dsimp only
    split <;> rfl

/-- A request is answered as far as every step of the hub succeeds. -/
theorem Hub.searchMessages_ok {payload : WsSearchMessagesRequest}
    (hlong : ¬ (trimSpace isSpace payload.query).length < 2)
    (h : Hub.searchMessages search t access fails payload = .ok response) :
    ∃ params cursor, payload.params = .ok params ∧
      decodeWsMessageCursor payload.cursor = some cursor ∧
      response.hits = (t.searchMessages search { params with cursor := cursor }).1 ∧
      encodeNextCursor (t.searchMessages search { params with cursor := cursor }).2.1 =
        .ok response.nextCursor ∧
      response.hasMore = (t.searchMessages search { params with cursor := cursor }).2.2 := by
  unfold Hub.searchMessages at h
  rw [if_neg hlong] at h
  split at h
  · cases h
  cases haccess : accessChecked payload access with
  | error err =>
    rw [haccess] at h
    cases h
  | ok _ =>
    rw [haccess] at h
    cases hparams : payload.params with
    | error err =>
      rw [hparams] at h
      cases h
    | ok params =>
      rw [hparams] at h
      cases hcursor : decodeWsMessageCursor payload.cursor with
      | none =>
        rw [hcursor] at h
        cases h
      | some cursor =>
        rw [hcursor] at h
        simp only [bind, Except.bind] at h
        split at h
        · cases h
        · cases henc : encodeNextCursor (t.searchMessages search { params with cursor := cursor }).2.1 with
          | error err =>
            rw [henc] at h
            cases h
          | ok raw =>
            rw [henc] at h
            cases h
            exact ⟨params,cursor,rfl,rfl,rfl,henc,rfl⟩

/-- The page of a request that goes on from a row, and the text of the next cursor. -/
theorem answered (hraw : Continues raw after)
    (h : Hub.searchMessages search t access fails (s.payload raw) = .ok response) :
    HitsAfter (wanted search t s) (wanted search t s) after response := by
  by_cases hlong : (trimSpace isSpace s.query).length < 2
  · have hresponse : response = ⟨[],[],false⟩ := (Except.ok.inj ((if_pos hlong).symm.trans h)).symm
    rw [hresponse]
    refine ⟨none,⟨.nil,nofun,nofun,nofun,nofun,fun k hk => ?_⟩,rfl,continues_nil⟩
    exact absurd hk.1 (by omega)
  obtain ⟨params,cursor,hparams,hcursor,hhits,hnext,hmore⟩ := Hub.searchMessages_ok hlong h
  have hafter : cursor.map WsMessageCursor.key = after := by
    have hraw' : (decodeWsMessageCursor raw).map (Option.map WsMessageCursor.key) = some after := hraw
    rw [show decodeWsMessageCursor raw = some cursor from hcursor] at hraw'
    exact Option.some.inj hraw'
  obtain ⟨next,hfound,hcur,hsome⟩ :=
    Table.searchMessages_found search t { params with cursor := cursor }
  have hset : {k | k ∈ t.rows ∧ t.selects search { params with cursor := cursor } k = true} =
      wanted search t s := by
    ext k
    constructor
    · rintro ⟨hk,hsel⟩
      exact ⟨by omega,params,hparams,hk,hsel⟩
    · rintro ⟨-,params',hparams',hk,hsel⟩
      rw [← params_payload s raw,hparams] at hparams'
      cases hparams'
      exact ⟨hk,hsel⟩
  dsimp only at hfound
  rw [hset,hafter,← hhits] at hfound
  refine ⟨next,hfound,hmore.trans hsome,?_⟩
  rw [hcur] at hnext
  cases next with
  | none =>
    obtain hnil := Except.ok.inj hnext
    rw [← hnil]
    exact continues_nil
  | some k =>
    have hk : k ∈ t.rows := by
      have hmem := hfound.held k (hfound.next k rfl)
      exact hmem.2.choose_spec.2.1
    obtain ⟨hsend,h0,hlt⟩ := t.sendable k hk
    obtain ⟨raw',henc,hcont⟩ := encodeNextCursor_row h0 hlt hsend
    rw [Option.map_some,henc] at hnext
    rw [← Except.ok.inj hnext]
    exact hcont

end MiniDiscord.MessageHistory
