import ChainIngest.Bytes.Keccak
import ChainIngest.Transfer

/-!
Events as contracts declare them. An event is logged as topics and data: the first topic is the
hash of the event's signature, each indexed parameter is a topic of its own, and the other
parameters are the words of the data, both in the order in which they are declared.
-/

namespace ChainIngest

/-- A number as 32 bytes. -/
def wordBytes (n : BitVec 256) : List UInt8 := Bytes.natBytes 32 n.toNat

/-- The number in the first 32 bytes. -/
def wordOfBytes (data : List UInt8) : BitVec 256 := BitVec.ofNat 256 (Bytes.natOf (data.take 32))

/-- A type whose values take one word of 32 bytes. -/
inductive WordType where
  | address
  | uint256
  deriving DecidableEq, Repr

namespace WordType

/-- The name in signatures. -/
def name : WordType → String
  | address => "address"
  | uint256 => "uint256"

@[reducible] def Value : WordType → Type
  | address => Address
  | uint256 => BitVec 256

def toWord : (type : WordType) → type.Value → Hash
  | address, a => Address.toTopic a
  | uint256, n => ⟨wordBytes n, Bytes.length_natBytes 32 _⟩

/-- Any word is read: of an address's, what comes first is not looked at. -/
def ofWord : (type : WordType) → Hash → type.Value
  | address, word => Address.ofTopic word
  | uint256, word => wordOfBytes word.toList

end WordType

/-- A parameter of an event. -/
structure EventParameter where
  type : WordType
  isIndexed : Bool
  deriving DecidableEq, Repr

namespace EventParameter

/-- A value for each parameter. -/
@[reducible] def Values : List EventParameter → Type
  | [] => Unit
  | p :: ps => p.type.Value × Values ps

/-- The topics and the words of the data. -/
def encode : (ps : List EventParameter) → Values ps → List Hash × List Hash
  | [], _ => ([], [])
  | ⟨type, true⟩ :: ps, (value, values) =>
    (type.toWord value :: (encode ps values).1, (encode ps values).2)
  | ⟨type, false⟩ :: ps, (value, values) =>
    ((encode ps values).1, type.toWord value :: (encode ps values).2)

/-- Reads the values. No topic may be left over; what is left of the data is ignored. -/
def decode? : (ps : List EventParameter) → List Hash → List UInt8 → Option (Values ps)
  | [], [], _ => some ()
  | [], _ :: _, _ => none
  | ⟨_, true⟩ :: _, [], _ => none
  | ⟨type, true⟩ :: ps, word :: topics, data =>
    (decode? ps topics data).map (type.ofWord word, ·)
  | ⟨type, false⟩ :: ps, topics, data =>
    (Bytes.ofList? 32 (data.take 32)).bind fun word =>
      (decode? ps topics (data.drop 32)).map (type.ofWord word, ·)

end EventParameter

structure EventDeclaration where
  name : String
  parameters : List EventParameter
  deriving DecidableEq, Repr

namespace EventDeclaration

/-- The name, and in brackets the types of the parameters. -/
def signature (d : EventDeclaration) : String :=
  d.name ++ "(" ++ ",".intercalate (d.parameters.map (·.type.name)) ++ ")"

/-- The first topic of the event's logs. -/
def topic (d : EventDeclaration) : Hash := Keccak.hash d.signature.toUTF8.toList

abbrev Values (d : EventDeclaration) : Type := EventParameter.Values d.parameters

/-- The topics and the data that an event is logged with. -/
def encode (d : EventDeclaration) (values : d.Values) : List Hash × List UInt8 :=
  let (topics, words) := EventParameter.encode d.parameters values
  (d.topic :: topics, words.flatMap (·.toList))

/-- Reads an event from topics and data. -/
def decode? (d : EventDeclaration) : List Hash → List UInt8 → Option d.Values
  | [], _ => none
  | signature :: topics, data =>
    if signature = d.topic then EventParameter.decode? d.parameters topics data else none

end EventDeclaration

/-! ### Transfers -/

namespace TransferEvent

/-- `event Transfer(address indexed from, address indexed to, uint256 value)` -/
def declaration : EventDeclaration :=
  ⟨"Transfer", [⟨.address, true⟩, ⟨.address, true⟩, ⟨.uint256, false⟩]⟩

/-- The first topic of transfer events. -/
def topic : Hash := declaration.topic

def toValues (e : TransferEvent) : declaration.Values := (e.sender, e.recipient, e.amount, ())

def ofValues : declaration.Values → TransferEvent
  | (sender, recipient, amount, _) => ⟨sender, recipient, amount⟩

/-- The topics and the data that a transfer is logged with. -/
def encode (e : TransferEvent) : List Hash × List UInt8 := declaration.encode e.toValues

/-- Reads a transfer from topics and data. -/
def decode? (topics : List Hash) (data : List UInt8) : Option TransferEvent :=
  (declaration.decode? topics data).map ofValues

end TransferEvent

end ChainIngest
