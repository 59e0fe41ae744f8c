import RudpScheduler.Construction.Wire

/-!
# The default workload

`workload/hashsearch/hashsearch.go`: the search for the nonce in a range that minimises a hash of
the message and the nonce.  The hash of a byte string, the first eight bytes of SHA-256 in the
source, is a parameter.
-/

namespace RudpScheduler.HashSearch

/-- `strconv.AppendUint(buf, nonce, 10)`: the decimal digits of a nonce. -/
def decimal (nonce : UInt64) : List UInt8 :=
  (Nat.toDigits 10 nonce.toNat).map fun c => UInt8.ofNat c.toNat

/-- What is hashed: the message, a blank, and the nonce in decimal. -/
def hashInput (msg : Msg) (nonce : UInt64) : List UInt8 := msg ++ [32] ++ decimal nonce

variable (sum : List UInt8 → UInt64)

/-- `Hash`. -/
def hash (msg : Msg) (nonce : UInt64) : UInt64 := sum (hashInput msg nonce)

/-- `Zero`. -/
def zero : Partial := ⟨18446744073709551615, 18446744073709551615⟩

/-- `Merge` keeps the smaller hash; on equal hashes, the smaller nonce. -/
def merge (a b : Partial) : Partial :=
  if b.hash < a.hash ∨ b.hash = a.hash ∧ b.nonce < a.nonce then b else a

/-- The loop of `Compute`, with the rounds left. -/
def computeLoop (msg : Msg) (hi : UInt64) : ℕ → UInt64 → Partial → Partial
  | 0, _, best => best
  | rounds + 1, nonce, best =>
    if nonce < hi then
      let h := hash sum msg nonce
      let best :=
        if h < best.hash ∨ h = best.hash ∧ nonce < best.nonce then ⟨h, nonce⟩ else best
      computeLoop msg hi rounds (nonce + 1) best
    else best

/-- `Compute`.  The loop counter goes up by one until it reaches `hi`, which takes `hi - lo`
rounds. -/
def compute (msg : Msg) (lo hi : UInt64) : Partial :=
  computeLoop sum msg hi (hi.toNat - lo.toNat) lo zero

/-- The workload. -/
def workload : Workload where
  compute := compute sum
  merge := merge
  zero := zero

end RudpScheduler.HashSearch
