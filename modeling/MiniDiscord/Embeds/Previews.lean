import MiniDiscord.Data.GoMap

/-! # Link previews

The rows of the table `link_previews`, the token that stands for an image of a row, and what is
kept in memory of a row.
-/
namespace MiniDiscord.Embeds

/-- An image token. The empty one, which the column pads with blanks, is none. -/
abbrev Token := List Char

inductive Status
  | ok
  | empty
  | failed
deriving DecidableEq

/-- What the fetcher finds on a page. -/
structure Page where
  status : Status
  title : String
  description : String
  siteName : String
  imageURL : String

structure LinkPreviewRecord where
  urlHash : String
  url : String
  status : Status
  title : String
  description : String
  siteName : String
  imageURL : String
  imageToken : Token
deriving DecidableEq

/-- A row of the table. `id` tells rows apart that were deleted and inserted again. -/
structure Row extends LinkPreviewRecord where
  fetchedAt : ℤ
  id : ℕ
deriving DecidableEq

structure WsLinkPreview where
  url : String
  title : String
  description : String
  siteName : String
  imageToken : Token
deriving DecidableEq

/-- A preview in memory, with the row it was taken from. -/
structure CachedPreview where
  hash : String
  ok : Bool
  preview : WsLinkPreview
  row : ℕ
deriving DecidableEq

structure Config where
  cacheTTL : ℤ
  negativeTTL : ℤ

def isFresh (cfg : Config) (row : Row) (now : ℤ) : Bool :=
  decide (now - row.fetchedAt < if row.status = .ok then cfg.cacheTTL else cfg.negativeTTL)

/-- `cachedPreview{}`. -/
def noPreview : CachedPreview := ⟨"",false,⟨"","","","",[]⟩,0⟩

def toCached (record : LinkPreviewRecord) (row : ℕ) : CachedPreview :=
  if record.status = .ok then
    ⟨record.urlHash,true,⟨record.url,record.title,record.description,record.siteName,
      record.imageToken⟩,row⟩
  else { noPreview with hash := record.urlHash, row := row }

/-! ## Tokens -/

def imageTokenLength : ℕ := 32

def hexDigit (n : ℕ) : Char :=
  ['0','1','2','3','4','5','6','7','8','9','a','b','c','d','e','f'].getD n '0'

/-- The random bytes in hexadecimal, or no token if there are none. -/
def newImageToken : Option (Fin 16 → UInt8) → Token
  | none => []
  | some buffer =>
    (List.ofFn buffer).flatMap fun b => [hexDigit (b.toNat / 16),hexDigit (b.toNat % 16)]

def isImageToken (token : Token) : Bool :=
  decide (token.length = imageTokenLength) &&
    token.all fun c => decide ('0' ≤ c ∧ c ≤ '9' ∨ 'a' ≤ c ∧ c ≤ 'f')

theorem isImageToken_newImageToken (buffer : Fin 16 → UInt8) :
    isImageToken (newImageToken (some buffer)) = true := by
  have hdigit : ∀ n < 16, '0' ≤ hexDigit n ∧ hexDigit n ≤ '9' ∨
      'a' ≤ hexDigit n ∧ hexDigit n ≤ 'f' := by decide
  have hlen : ∀ l : List UInt8, (l.flatMap fun b =>
      [hexDigit (b.toNat / 16),hexDigit (b.toNat % 16)]).length = 2 * l.length := by
    intro l
    induction l with
    | nil => rfl
    | cons b l ih =>
      rw [List.flatMap_cons,List.length_append,ih,List.length_cons,List.length_cons,
        List.length_cons,List.length_nil]
      omega
  rw [isImageToken,Bool.and_eq_true,decide_eq_true_iff,List.all_eq_true]
  constructor
  · rw [newImageToken,hlen,List.length_ofFn,imageTokenLength]
  · intro c hc
    obtain ⟨b,-,hb⟩ := List.mem_flatMap.mp hc
    have hbyte := b.toNat_lt
    apply decide_eq_true
    simp only [List.mem_cons,List.not_mem_nil,or_false] at hb
    rcases hb with rfl | rfl
    · exact hdigit _ (by omega)
    · exact hdigit _ (by omega)

/-! ## The table -/

/-- The record that is stored for a page, or for a fetch that failed. -/
def fetchedRecord (hash url : String) (buffer : Option (Fin 16 → UInt8)) :
    Option Page → LinkPreviewRecord
  | none => ⟨hash,url,.failed,"","","","",[]⟩
  | some page =>
    ⟨hash,url,page.status,page.title,page.description,page.siteName,page.imageURL,
      if page.imageURL = "" then [] else newImageToken buffer⟩

/-- `image_token` of the upsert: none without an image, otherwise the old one if there is one. -/
def upsertToken (old : Option Row) (record : LinkPreviewRecord) : Token :=
  match old with
  | none => record.imageToken
  | some old =>
    if record.imageURL = "" then []
    else if old.imageToken = [] then record.imageToken
    else old.imageToken

/-- Another row has the token, against the unique index of the tokens that are not empty. -/
def TokenTaken (rows : GoMap String Row) (hash : String) (token : Token) : Prop :=
  token ≠ [] ∧ ∃ other ∈ rows.keys, other ≠ hash ∧
    ∃ row ∈ rows.lookup other, row.imageToken = token

instance (rows : GoMap String Row) (hash : String) (token : Token) :
    Decidable (TokenTaken rows hash token) :=
  inferInstanceAs (Decidable (_ ∧ _))

/-- `UpsertLinkPreview`: the row that is stored, or an error. -/
def upsertLinkPreview (rows : GoMap String Row) (record : LinkPreviewRecord) (now : ℤ)
    (nextRow : ℕ) : Option Row :=
  let old := rows.lookup record.urlHash
  let token := upsertToken old record
  if TokenTaken rows record.urlHash token then none
  else some
    { record with
      imageToken := token
      fetchedAt := now
      id := (old.map Row.id).getD nextRow }

/-- A row that `GetLinkPreviewByImageToken` may give. -/
def Found (rows : GoMap String Row) (token : Token) (row : Row) : Prop :=
  token ≠ [] ∧ ∃ hash, rows.lookup hash = some row ∧ row.imageToken = token

/-- `handleImage` comes to an image URL: the token is well formed, it finds a row, and no row it
may find is refused. -/
def Resolves (rows : GoMap String Row) (token : Token) : Prop :=
  isImageToken token = true ∧ (∃ row, Found rows token row) ∧
    ∀ row, Found rows token row → row.status = .ok ∧ row.imageURL ≠ ""

end MiniDiscord.Embeds
