/-!
The flag words that a store's calls take, and what each means once read.
-/
namespace CollatedStore

namespace Flags

def noOverwrite : UInt32 := 0x10
def noDupData : UInt32 := 0x20
def current : UInt32 := 0x40
def append : UInt32 := 0x20000
def appendDup : UInt32 := 0x40000
def multiple : UInt32 := 0x80000

def readOnly : UInt32 := 0x20000
def create : UInt32 := 0x40000

def dupSort : UInt32 := 0x04
def dupFixed : UInt32 := 0x10

/-- The flags that belong to a database for good; a store may support only some. -/
def persistent : UInt32 := 0x7E

/-- What a plain put may ask for. -/
def put : UInt32 := noOverwrite ||| noDupData ||| append ||| appendDup

/-- What a put through a cursor may ask for. -/
def cursorPut : UInt32 := put ||| current ||| multiple

def has (flags mask : UInt32) : Bool := flags &&& mask != 0

def within (flags mask : UInt32) : Bool := flags &&& ~~~mask == 0

end Flags

/-- How a database keeps its values. -/
structure DbFlags where
  dupSort : Bool
  dupFixed : Bool
  deriving DecidableEq, Repr

namespace DbFlags

def plain : DbFlags := ⟨false, false⟩

/-- Sorted values of one length under each key. -/
def fixed (flags : DbFlags) : Bool := flags.dupSort && flags.dupFixed

/-- Nothing if the word asks for a kind of database that is not supported. -/
def ofFlags? (flags : UInt32) : Option DbFlags :=
  if Flags.within (flags &&& Flags.persistent) (Flags.dupSort ||| Flags.dupFixed) then
    some ⟨Flags.has flags Flags.dupSort, Flags.has flags Flags.dupFixed⟩
  else none

end DbFlags

/-- The conditions under which a put stores its pair. -/
structure PutRule where
  noOverwrite : Bool
  noDupData : Bool
  append : Bool
  appendDup : Bool
  deriving DecidableEq, Repr

namespace PutRule

def ofFlags (flags : UInt32) : PutRule where
  noOverwrite := Flags.has flags Flags.noOverwrite
  noDupData := Flags.has flags Flags.noDupData
  append := Flags.has flags Flags.append
  appendDup := Flags.has flags Flags.appendDup

end PutRule

end CollatedStore
