import CollatedStore.Store.Basic

/-!
Store calls made from plain buffers, each of which may be missing. Every function makes one call,
with the descriptors that the store expects, and passes its reply on.
-/
namespace CollatedStore

namespace Buffers

variable {ε : Type} [Store ε]

def get (store : ε) (txn : Handle) (dbi : Dbi) (key : Option Bytes) :
    Inquiry (Reply Outcome ε (Option Descriptor)) :=
  Store.get store txn dbi (some (.ofBuffer key)) (some .empty)

/-- The value comes in a descriptor of the caller's, which the store may fill. -/
def putDescribed (store : ε) (txn : Handle) (dbi : Dbi) (key : Option Bytes)
    (value : Option Descriptor) (flags : UInt32) : Inquiry (Reply Outcome ε (Option Descriptor)) :=
  Store.put store txn dbi (some (.ofBuffer key)) value flags

def put (store : ε) (txn : Handle) (dbi : Dbi) (key value : Option Bytes) (flags : UInt32) :
    Inquiry (Reply Outcome ε (Option Descriptor)) :=
  putDescribed store txn dbi key (some (.ofBuffer value)) flags

/-- Without a value, every value of the key is meant. -/
def del (store : ε) (txn : Handle) (dbi : Dbi) (key value : Option Bytes) :
    Inquiry (Reply Outcome ε Unit) :=
  Store.del store txn dbi (some (.ofBuffer key)) (value.map .filled)

def cursorGet (store : ε) (cursor : Handle) (op : UInt32) :
    Inquiry (Reply Outcome ε (Option Descriptor × Option Descriptor)) :=
  Store.cursorGet store cursor (some .empty) (some .empty) op

def cursorGetKey (store : ε) (cursor : Handle) (key : Option Bytes) (op : UInt32) :
    Inquiry (Reply Outcome ε (Option Descriptor × Option Descriptor)) :=
  Store.cursorGet store cursor (some (.ofBuffer key)) (some .empty) op

def cursorGetPair (store : ε) (cursor : Handle) (key value : Option Bytes) (op : UInt32) :
    Inquiry (Reply Outcome ε (Option Descriptor × Option Descriptor)) :=
  Store.cursorGet store cursor (some (.ofBuffer key)) (some (.ofBuffer value)) op

def cursorPutDescribed (store : ε) (cursor : Handle) (key : Option Bytes)
    (value : Option Descriptor) (flags : UInt32) : Inquiry (Reply Outcome ε (Option Descriptor)) :=
  Store.cursorPut store cursor (some (.ofBuffer key)) value flags

def cursorPut (store : ε) (cursor : Handle) (key value : Option Bytes) (flags : UInt32) :
    Inquiry (Reply Outcome ε (Option Descriptor)) :=
  cursorPutDescribed store cursor key (some (.ofBuffer value)) flags

/-- Records without bytes are refused before the store is called, and then no count is told. -/
def cursorPutMany (store : ε) (cursor : Handle) (key : Option Bytes) (page : Bytes)
    (count stride : Nat) (flags : UInt32) : Inquiry (Reply Outcome ε (Option Nat)) :=
  if stride = 0 then return ⟨.ok .invalid, none, store⟩
  else do
    let reply ← Store.cursorPutMany store cursor (some (.ofBuffer key)) page count stride
      (flags ||| Flags.multiple)
    return ⟨reply.ended, some reply.out, reply.store⟩

end Buffers

end CollatedStore
