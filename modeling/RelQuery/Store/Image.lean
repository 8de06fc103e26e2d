/-
  Images of a store: the bytes a durable store is kept as between runs.

  An image holds the block of numbers in use, the number of partitions, and each partition as its
  name, the number of its entries and the entries. Names, keys and values follow their lengths.
  How the entries lie in pages is not kept: no cursor is open between runs.
-/
import RelQuery.Store
import RelQuery.Record

namespace RelQuery.Store.Image

/-- Bytes behind their number. -/
def block (bytes : Bytes) : Bytes := Bytes.bigEndian 4 bytes.length ++ bytes

def encodePartition (name : String) (table : Table) : Bytes :=
  block (Utf8.encode name) ++ Bytes.bigEndian 4 table.size
    ++ table.entries.flatMap fun e => block e.1 ++ block e.2

/-- The image of a store. Tables that no partition leads to are left out. -/
def encode (s : Store) : Bytes :=
  Bytes.bigEndian 8 s.currentBlock.toNat ++ Bytes.bigEndian 4 s.partitions.size
    ++ s.partitions.entries.flatMap fun p => encodePartition p.1 (s.table p.2)

def readBlock : Read Bytes := do
  Reader.take (← Reader.nat 4)

/-- Reads entries into a partition. -/
def readEntries (partition : String) : (count : Nat) → (s : Store) → Read Store
  | 0, s => return s
  | count + 1, s => do
    let key ← readBlock
    let value ← readBlock
    readEntries partition count (← MonadExcept.ofExcept (s.put partition key value))

/-- Reads partitions into a store. -/
def readPartitions : (count : Nat) → (s : Store) → Read Store
  | 0, s => return s
  | count + 1, s => do
    let partition ← Reader.string
    let entries ← Reader.nat 4
    readPartitions count (← readEntries partition entries (s.create partition))

/-- Reads a store. -/
def read : Read Store := do
  let currentBlock ← Reader.nat 8
  let count ← Reader.nat 4
  readPartitions count { Store.durable with currentBlock := UInt64.ofNat currentBlock }

/-- The store that an image holds. -/
def decode (image : Bytes) : Except Error Store := read.all image

end RelQuery.Store.Image
