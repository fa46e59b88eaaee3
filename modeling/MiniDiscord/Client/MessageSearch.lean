import MiniDiscord.History.Search
import MiniDiscord.Client.ChatSocket

/-! # The search panel

`useMessageSearch` with the hub behind it. The messages change while the requests are under
way, and the responses come in any order. A response is applied if no search was submitted
since its request was sent.
-/
namespace MiniDiscord.MessageSearch
open ChatHub Decimal Paging Transition MessageHistory

def MIN_QUERY_LENGTH : ℕ := 2

structure Request where
  seq : ℕ
  more : Bool
  search : Search
  cursor : Bytes
  response : Option (Except String WsSearchMessagesResponse)
  /-- The messages wanted at every moment since the hub has answered, and at some moment. -/
  always : Set Key
  ever : Set Key

/-- The last three fields are about the hits; nothing in the program keeps them. -/
structure State where
  query : List Char
  scope : SearchScope
  filters : SearchFilters
  channelId : ChannelID
  serverId : ServerID
  isConnected : Bool
  hits : List Key
  cursor : Bytes
  hasMore : Bool
  isLoading : Bool
  isLoadingMore : Bool
  hasSearched : Bool
  error : String
  requestSeq : ℕ
  table : Table
  requests : List Request
  /-- The search whose hits are shown. -/
  shown : Option Search
  /-- The messages it wanted at every moment since its first page was read. -/
  always : Set Key
  /-- Those it wanted at some moment since. -/
  ever : Set Key

def start (channelId : ChannelID) (serverId : ServerID) (table : Table) : State where
  query := []
  scope := .channel
  filters := ⟨none,false,false,[],[]⟩
  channelId := channelId
  serverId := serverId
  isConnected := true
  hits := []
  cursor := []
  hasMore := false
  isLoading := false
  isLoadingMore := false
  hasSearched := false
  error := ""
  requestSeq := 0
  table := table
  requests := []
  shown := none
  always := ∅
  ever := ∅

/-- The number of UTF-16 units. -/
def textLength (text : List Char) : ℕ := (Unicode.utf16 text).length

namespace State
variable (s : State)

def scopeId : ℤ := if s.scope = .server then s.serverId else s.channelId

/-- What the inputs ask for now. -/
def search : Search := ⟨trimSpace ChatSocket.isWhiteSpace s.query,s.scope,s.scopeId,s.filters⟩

/-- The checks that `submit` and `loadMore` share. -/
def canSearch : Bool :=
  decide (MIN_QUERY_LENGTH ≤ textLength s.search.query) && s.isConnected && decide (0 < s.scopeId)

def submit : State :=
  if s.canSearch = false then s
  else { s with
    requestSeq := s.requestSeq + 1
    isLoading := true
    error := ""
    requests := s.requests ++ [⟨s.requestSeq + 1,false,s.search,[],none,∅,∅⟩] }

/-- A page is requested at a time. -/
def sendsMore : Bool :=
  s.canSearch && !s.isLoadingMore && s.hasMore && !s.cursor.isEmpty

def loadMore : State :=
  if s.sendsMore = false then s
  else { s with
    isLoadingMore := true
    requests := s.requests ++ [⟨s.requestSeq,true,s.search,s.cursor,none,∅,∅⟩] }

/-- What was found in the channel just left is taken away. -/
def setChannel (channelId : ChannelID) : State :=
  let s := { s with channelId := channelId }
  if s.scope ≠ .channel then s
  else { s with
    hits := []
    cursor := []
    hasMore := false
    hasSearched := false
    error := ""
    shown := none }

/-- The promise of a request is settled. -/
def settle (r : Request) : State :=
  if r.more = true then { s with isLoadingMore := false } else { s with isLoading := false }

def resolve (r : Request) (response : WsSearchMessagesResponse) : State :=
  if r.seq ≠ s.requestSeq then s
  else if r.more = true then
    { s with
      hits := s.hits ++ response.hits
      cursor := response.nextCursor
      hasMore := response.hasMore }.settle r
  else
    { s with
      hits := response.hits
      cursor := response.nextCursor
      hasMore := response.hasMore
      hasSearched := true
      shown := some r.search
      always := r.always
      ever := r.ever }.settle r

def reject (r : Request) (message : String) : State :=
  if r.seq ≠ s.requestSeq then s else { s with error := message }.settle r

def settled (r : Request) : Except String WsSearchMessagesResponse → State
  | .ok response => s.resolve r response
  | .error message => s.reject r message

end State

section Hub
variable (fts : TextSearch)

/-- The hub reads the messages as they are now. -/
def Request.answer (r : Request) (table : Table) (access : Option Bool) (fails : Bool) : Request := { r with
  response := some (Hub.searchMessages fts table access fails (r.search.payload r.cursor))
  always := wanted fts table r.search
  ever := wanted fts table r.search }

def Request.change (table : Table) (r : Request) : Request := { r with
  always := r.always ∩ wanted fts table r.search
  ever := r.ever ∪ wanted fts table r.search }

/-- Messages are sent, edited and deleted. -/
def State.change (s : State) (table : Table) : State := { s with
  table := table
  requests := s.requests.map (Request.change fts table)
  always := {k ∈ s.always | ∀ search ∈ s.shown, k ∈ wanted fts table search}
  ever := s.ever ∪ {k | ∃ search ∈ s.shown, k ∈ wanted fts table search} }

inductive Event where
  | setQuery (query : List Char)
  | setScope (scope : SearchScope)
  | setFilters (filters : SearchFilters)
  | setChannel (channelId : ChannelID)
  | setServer (serverId : ServerID)
  | setConnected (isConnected : Bool)
  | submit
  | loadMore
  | change (table : Table)
  /-- The hub handles a request; its access check may fail or refuse, and its query may fail. -/
  | answer (i : ℕ) (access : Option Bool) (fails : Bool)
  | response (i : ℕ)
  /-- The request has timed out, or the connection is lost. -/
  | failed (i : ℕ) (message : String)

def step (s : State) : Event → Option State
  | .setQuery query => some { s with query := query }
  | .setScope scope => some { s with scope := scope }
  | .setFilters filters => some { s with filters := filters }
  | .setChannel channelId => some (s.setChannel channelId)
  | .setServer serverId => some { s with serverId := serverId }
  | .setConnected isConnected => some { s with isConnected := isConnected }
  | .submit => some s.submit
  | .loadMore => some s.loadMore
  | .change table => some (s.change fts table)
  | .answer i access fails =>
    match s.requests[i]? with
    | none => none
    | some r =>
      if r.response.isSome = true then none
      else some { s with requests := s.requests.set i (r.answer fts s.table access fails) }
  | .response i =>
    match s.requests[i]? with
    | none => none
    | some r => r.response.map ({ s with requests := s.requests.eraseIdx i }.settled r)
  | .failed i message =>
    match s.requests[i]? with
    | none => none
    | some r => some ({ s with requests := s.requests.eraseIdx i }.reject r message)

end Hub

/-- More hits are loaded for the search that is shown, and the channel is not switched while a
response is awaited. -/
def Undisturbed (s : State) : Event → Prop
  | .loadMore => s.sendsMore = true → s.isLoading = false ∧ s.shown = some s.search
  | .setChannel _ => s.scope = .channel → ∀ r ∈ s.requests, r.seq ≠ s.requestSeq
  | _ => True

end MiniDiscord.MessageSearch
