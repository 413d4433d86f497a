import ChainIngest.Chain.Data
import ChainIngest.Rlp
import ChainIngest.Signature.Recovery

/-!
Signed transactions: what each kind of transaction holds, what of it is signed, and who signed it.
-/

namespace ChainIngest

/-- Storage that a transaction announces to use. -/
structure AccessEntry where
  contract : Address
  storageKeys : List Hash
  deriving DecidableEq, Repr

/-- A signed permission to run a contract's code in an account. -/
structure Authorization where
  chainId : Nat
  contract : Address
  nonce : UInt64
  odd : Nat
  r : Nat
  s : Nat
  deriving DecidableEq, Repr

/-- What the fee of a transaction is made of. -/
structure DynamicFee where
  priorityFee : Nat
  maxFee : Nat
  deriving DecidableEq, Repr

/-- The kinds of transactions, with what they hold besides the common fields. -/
inductive TransactionKind where
  /-- The oldest kind; its signature may be bound to a chain. -/
  | plain (gasPrice : Nat) (chainId : Option Nat)
  | withAccessList (chainId gasPrice : Nat) (access : List AccessEntry)
  | withDynamicFee (chainId : Nat) (fee : DynamicFee) (access : List AccessEntry)
  | withBlobs (chainId : Nat) (fee : DynamicFee) (access : List AccessEntry) (maxBlobFee : Nat)
      (blobHashes : List Hash)
  | withAuthorizations (chainId : Nat) (fee : DynamicFee) (access : List AccessEntry)
      (authorizations : List Authorization)
  deriving DecidableEq, Repr

structure SignedTransaction where
  kind : TransactionKind
  nonce : UInt64
  gas : UInt64
  recipient : Option Address
  value : BitVec 256
  input : List UInt8
  signature : Signature
  deriving DecidableEq, Repr

namespace SignedTransaction

def encodeBytes (b : Bytes n) : Rlp := .bytes b.toList

def encodeAccess (access : List AccessEntry) : Rlp :=
  .list (access.map fun entry =>
    .list [encodeBytes entry.contract, .list (entry.storageKeys.map encodeBytes)])

def encodeAuthorization (a : Authorization) : Rlp := .list [
  .number a.chainId, encodeBytes a.contract, .number a.nonce.toNat, .number a.odd, .number a.r,
  .number a.s]

/-- Gas, recipient, value and input. -/
def encodeCall (t : SignedTransaction) : List Rlp := [
  .number t.gas.toNat, .bytes ((t.recipient.map Bytes.toList).getD []), .number t.value.toNat,
  .bytes t.input]

/-- The start of kinds whose fee is dynamic. -/
def encodeDynamic (t : SignedTransaction) (chainId : Nat) (fee : DynamicFee)
    (access : List AccessEntry) : List Rlp :=
  [.number chainId, .number t.nonce.toNat, .number fee.priorityFee, .number fee.maxFee] ++
    t.encodeCall ++ [encodeAccess access]

/-- What is signed. The kinds after the first one begin with a byte of their own. -/
def signedBytes (t : SignedTransaction) : List UInt8 :=
  match t.kind with
  | .plain gasPrice chainId =>
    let binding := match chainId with
      | some id => [.number id, .number 0, .number 0]
      | none => []
    (Rlp.list ([.number t.nonce.toNat, .number gasPrice] ++ t.encodeCall ++ binding)).encode
  | .withAccessList chainId gasPrice access =>
    0x01 :: (Rlp.list ([.number chainId, .number t.nonce.toNat, .number gasPrice] ++
      t.encodeCall ++ [encodeAccess access])).encode
  | .withDynamicFee chainId fee access =>
    0x02 :: (Rlp.list (t.encodeDynamic chainId fee access)).encode
  | .withBlobs chainId fee access maxBlobFee blobHashes =>
    0x03 :: (Rlp.list (t.encodeDynamic chainId fee access ++
      [.number maxBlobFee, .list (blobHashes.map encodeBytes)])).encode
  | .withAuthorizations chainId fee access authorizations =>
    0x04 :: (Rlp.list (t.encodeDynamic chainId fee access ++
      [.list (authorizations.map encodeAuthorization)])).encode

/-- Who signed the transaction, if its signature tells. -/
def sender? (t : SignedTransaction) : Option Address :=
  t.signature.signer? (Keccak.hash t.signedBytes)

end SignedTransaction

end ChainIngest
