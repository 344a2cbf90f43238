import LedgerSearch.LedgerClose

/-
  Sample ledgers for trying programs out: each holds a number of equal payments from one account to
  another.
-/

namespace LedgerSearch.Memory.Sample

/-- A header of zeros. -/
def emptyHeader : LedgerHeader :=
  let zero : Hash := Block.fill 32 0
  ⟨0, zero, ⟨zero, 0, [], none⟩, zero, zero, 0, 0, 0, 0, 0, 0, 0, 0, (zero, zero, zero, zero), none⟩

/-- The account that pays. -/
def alice : Block 32 := Block.fill 32 1

/-- The account that is paid. -/
def bob : Block 32 := Block.fill 32 2

/-- An account entry of which only the balance matters. -/
def balanceEntry (key : Block 32) (balance : Int64) : LedgerEntry :=
  ⟨0, .account ⟨⟨key⟩, balance, 0, 0, none, 0, [], Block.fill 4 0, [], none⟩, none⟩

/-- A hash that tells the ledger and the place of its transaction. -/
def txHash (seq : UInt32) (i : Nat) : Hash :=
  Block.ofBytes 32 (bigEndianBytes 4 seq.toNat ++ bigEndianBytes 4 i ++ List.replicate 24 0xff)

/-- A payment of one unit, with the changes it makes to both balances. -/
def transactionRow (seq : UInt32) (i : Nat) : TransactionRow where
  hash := txHash seq i
  seq
  index := UInt32.ofNat i
  envelope :=
    ⟨.plain ⟨⟨alice, none⟩, 100, Int64.ofInt seq.toNat, none, .id (UInt64.ofNat i),
      [⟨none, .payment ⟨bob, none⟩ .native 10000000⟩]⟩, []⟩
  result := ⟨100, .success [.inner (.payment 0)]⟩
  changes := .v1 [] [[.state (balanceEntry alice 50000000), .updated (balanceEntry alice 40000000),
    .state (balanceEntry bob 10000000), .updated (balanceEntry bob 20000000)]]

/-- The fee of such a payment. -/
def feeRow (seq : UInt32) (i : Nat) : FeeRow :=
  ⟨txHash seq i, seq, UInt32.ofNat i,
    [.state (balanceEntry alice 50000100), .updated (balanceEntry alice 50000000)]⟩

/-- A ledger with that many payments. -/
def ledger (seq : UInt32) (payments : Nat) : Except Error LedgerClose := do
  let h := { emptyHeader with
    version := 15
    value := { emptyHeader.value with closeTime := UInt64.ofNat (1600000000 + 5 * seq.toNat) }
    seq, totalCoins := 1000000000000, baseFee := 100, baseReserve := 5000000, maxTxSetSize := 1000 }
  let row ← LedgerRow.ofHeader (Block.ofBytes 32 (bigEndianBytes 4 seq.toNat)) h
  let numbers := List.range' 1 payments
  pure ⟨row, numbers.map (transactionRow seq), numbers.map (feeRow seq)⟩

end LedgerSearch.Memory.Sample
