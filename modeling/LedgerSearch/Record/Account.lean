import LedgerSearch.Address
import LedgerSearch.Wire.Codec

/-
  Accounts, the keys that may sign for them, and signatures.
-/

namespace LedgerSearch

open Wire

/-- An account, named by its public key. -/
structure AccountId where
  key : Block 32
deriving DecidableEq

/-- The printed form of an account. -/
def AccountId.text (a : AccountId) : String := address .account a.key

/-- Only one kind of key is known. -/
def AccountId.codec : Codec AccountId :=
  Codec.tagged (fun _ => 0) fun t =>
    match t.toInt with
    | 0 => (Codec.block 32).imap AccountId.mk AccountId.key
    | _ => .unknown "PublicKey" t

/-- An account that may be divided by a number its owner chose. -/
structure MuxedAccount where
  key : Block 32
  id : Option UInt64
deriving DecidableEq

namespace MuxedAccount

/-- The account itself, whatever number is muxed into the address. -/
def account (m : MuxedAccount) : AccountId := ⟨m.key⟩

/-- The form without a number. -/
def plain : Codec MuxedAccount :=
  (Codec.block 32).arm (fun key => ⟨key, none⟩) fun m =>
    match m.id with
    | none => some m.key
    | some _ => none

/-- The form with a number, which stands before the key. -/
def divided : Codec MuxedAccount :=
  (Codec.uint64.pair (Codec.block 32)).arm (fun (id, key) => ⟨key, some id⟩) fun m =>
    m.id.map fun id => (id, m.key)

/-- The kind tells whether a number is there. -/
def codec : Codec MuxedAccount :=
  Codec.tagged (fun m => if m.id.isSome then 0x100 else 0) fun t =>
    match t.toInt with
    | 0 => plain
    | 0x100 => divided
    | _ => .unknown "MuxedAccount" t

end MuxedAccount

/-- What can sign for an account. -/
inductive SignerKey where
  | ed25519 (key : Block 32)
  | preAuthTx (hash : Hash)
  | hashX (hash : Hash)
deriving DecidableEq

namespace SignerKey

/-- The name of the kind of signer. -/
def typeName : SignerKey → String
  | .ed25519 _ => "ed25519"
  | .preAuthTx _ => "pre_auth_tx"
  | .hashX _ => "hash_x"

/-- The kind of signer settles the first letter of its address. -/
def text : SignerKey → String
  | .ed25519 key => address .account key
  | .preAuthTx hash => address .preAuthTx hash
  | .hashX hash => address .hashX hash

/-- The number of the kind in the record. -/
def tag : SignerKey → Int32
  | .ed25519 _ => 0
  | .preAuthTx _ => 1
  | .hashX _ => 2

/-- All three kinds of signer are 32 bytes long. -/
def codec : Codec SignerKey :=
  Codec.tagged tag fun t =>
    match t.toInt with
    | 0 => (Codec.block 32).arm .ed25519 fun | .ed25519 key => some key | _ => none
    | 1 => Codec.hash.arm .preAuthTx fun | .preAuthTx hash => some hash | _ => none
    | 2 => Codec.hash.arm .hashX fun | .hashX hash => some hash | _ => none
    | _ => .unknown "SignerKey" t

end SignerKey

/-- What may sign for an account; a weight of zero takes the right away. -/
structure Signer where
  key : SignerKey
  weight : UInt32
deriving DecidableEq

/-- The key, then its weight. -/
def Signer.codec : Codec Signer :=
  (SignerKey.codec.pair Codec.uint32).imap (fun (key, weight) => ⟨key, weight⟩)
    fun s => (s.key, s.weight)

/-- A signature and the end of the key that made it. -/
structure Signature where
  hint : Block 4
  signature : Bytes
deriving DecidableEq

/-- The hint has four bytes, the signature at most 64. -/
def Signature.codec : Codec Signature :=
  ((Codec.block 4).pair (Codec.bytes "Signature" 64)).imap (fun (hint, s) => ⟨hint, s⟩)
    fun s => (s.hint, s.signature)

end LedgerSearch
