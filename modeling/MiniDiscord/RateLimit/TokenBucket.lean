import Mathlib.Algebra.Order.Field.Rat
import Mathlib.Logic.Function.Basic

/-! # Token buckets

A bucket for each key, refilled with time up to its size. Times are seconds, and both they
and the tokens are exact rational numbers.
-/
namespace MiniDiscord.RateLimit

structure BucketState where
  tokens : ℚ
  lastRefill : ℚ
  deriving DecidableEq

structure TokenBucket where
  tokensPerSecond : ℚ
  maxTokens : ℚ
  tokens : String → Option BucketState

def newTokenBucket (tokensPerSecond maxTokens : ℚ) : TokenBucket :=
  ⟨tokensPerSecond,maxTokens,fun _ => none⟩

namespace TokenBucket

/-- A key has one token less than its bucket can hold when it is seen for the first time. -/
def allow (tb : TokenBucket) (now : ℚ) (clientID : String) : Bool × TokenBucket :=
  let key := if clientID = "" then "unknown" else clientID
  match tb.tokens key with
  | none => (true,{ tb with tokens := Function.update tb.tokens key (some ⟨tb.maxTokens - 1,now⟩) })
  | some bucket =>
    let tokens := min (bucket.tokens + (now - bucket.lastRefill) * tb.tokensPerSecond) tb.maxTokens
    if 1 ≤ tokens then
      (true,{ tb with tokens := Function.update tb.tokens key (some ⟨tokens - 1,now⟩) })
    else (false,{ tb with tokens := Function.update tb.tokens key (some ⟨tokens,now⟩) })

/-- Five minutes. -/
def cleanupInterval : ℚ := 300

/-- Buckets that were not asked for the whole interval are forgotten. -/
def cleanup (tb : TokenBucket) (now : ℚ) : TokenBucket :=
  { tb with
    tokens := fun key => (tb.tokens key).filter
      (fun bucket => decide (now - bucket.lastRefill ≤ cleanupInterval)) }

end TokenBucket
end MiniDiscord.RateLimit
