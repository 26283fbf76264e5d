/-!
Status codes of a store: zero is success, a small range is the store's own, and a few are the
system's. Every code has a description; the known ones have a name.
-/
namespace CollatedStore

structure Status where
  code : Int32
  deriving DecidableEq, Repr

namespace Status

def success : Status := ⟨0⟩
def keyExist : Status := ⟨-30799⟩
def notFound : Status := ⟨-30798⟩
def pageNotFound : Status := ⟨-30797⟩
def corrupted : Status := ⟨-30796⟩
def fatal : Status := ⟨-30795⟩
def versionMismatch : Status := ⟨-30794⟩
def invalidFile : Status := ⟨-30793⟩
def mapFull : Status := ⟨-30792⟩
def dbsFull : Status := ⟨-30791⟩
def readersFull : Status := ⟨-30790⟩
def tlsFull : Status := ⟨-30789⟩
def txnFull : Status := ⟨-30788⟩
def cursorFull : Status := ⟨-30787⟩
def pageFull : Status := ⟨-30786⟩
def mapResized : Status := ⟨-30785⟩
def incompatible : Status := ⟨-30784⟩
def badReaderSlot : Status := ⟨-30783⟩
def badTxn : Status := ⟨-30782⟩
def badValSize : Status := ⟨-30781⟩
def badDbi : Status := ⟨-30780⟩
def accessDenied : Status := ⟨13⟩
def busy : Status := ⟨16⟩
def invalid : Status := ⟨22⟩

/-- What a listing without a message function reports. -/
def noFunction : Status := ⟨-1⟩

/-- The known codes with their names and descriptions. -/
def known : List (Status × String × String) :=
  [(success, "MDB_SUCCESS", "Successful return: 0"),
   (keyExist, "MDB_KEYEXIST", "MDB_KEYEXIST: Key/data pair already exists"),
   (notFound, "MDB_NOTFOUND", "MDB_NOTFOUND: No matching key/data pair found"),
   (pageNotFound, "MDB_PAGE_NOTFOUND", "MDB_PAGE_NOTFOUND: Requested page not found"),
   (corrupted, "MDB_CORRUPTED", "MDB_CORRUPTED: Located page was wrong type"),
   (fatal, "MDB_PANIC",
    "MDB_PANIC: Update of meta page failed or environment had fatal error"),
   (versionMismatch, "MDB_VERSION_MISMATCH",
    "MDB_VERSION_MISMATCH: Database environment version mismatch"),
   (invalidFile, "MDB_INVALID", "MDB_INVALID: File is not an LMDB file"),
   (mapFull, "MDB_MAP_FULL", "MDB_MAP_FULL: Environment mapsize limit reached"),
   (dbsFull, "MDB_DBS_FULL", "MDB_DBS_FULL: Environment maxdbs limit reached"),
   (readersFull, "MDB_READERS_FULL", "MDB_READERS_FULL: Environment maxreaders limit reached"),
   (tlsFull, "MDB_TLS_FULL",
    "MDB_TLS_FULL: Thread-local storage keys full - too many environments open"),
   (txnFull, "MDB_TXN_FULL",
    "MDB_TXN_FULL: Transaction has too many dirty pages - transaction too big"),
   (cursorFull, "MDB_CURSOR_FULL", "MDB_CURSOR_FULL: Internal error - cursor stack limit reached"),
   (pageFull, "MDB_PAGE_FULL", "MDB_PAGE_FULL: Internal error - page has no more space"),
   (mapResized, "MDB_MAP_RESIZED",
    "MDB_MAP_RESIZED: Database contents grew beyond environment mapsize"),
   (incompatible, "MDB_INCOMPATIBLE",
    "MDB_INCOMPATIBLE: Operation and DB incompatible, or DB flags changed"),
   (badReaderSlot, "MDB_BAD_RSLOT", "MDB_BAD_RSLOT: Invalid reuse of reader locktable slot"),
   (badTxn, "MDB_BAD_TXN", "MDB_BAD_TXN: Transaction must abort, has a child, or is invalid"),
   (badValSize, "MDB_BAD_VALSIZE",
    "MDB_BAD_VALSIZE: Unsupported size of key/DB name/data, or wrong DUPFIXED size"),
   (badDbi, "MDB_BAD_DBI",
    "MDB_BAD_DBI: The specified DBI handle was closed/changed unexpectedly"),
   (accessDenied, "EACCES", "Permission denied"),
   (busy, "EBUSY", "Device or resource busy"),
   (invalid, "EINVAL", "Invalid argument")]

def name? (s : Status) : Option String := (known.lookup s).map (·.1)

def describe (s : Status) : String := ((known.lookup s).map (·.2)).getD "Unknown error"

/-- The range reserved for the store's own codes. -/
def isStoreCode (s : Status) : Bool :=
  decide (keyExist.code ≤ s.code) && decide (s.code ≤ badDbi.code)

/-- Name, code and description, as messages quote a status. -/
def text (s : Status) : String :=
  s.name?.getD "UNKNOWN" ++ " (" ++ toString s.code.toInt ++ "): " ++ s.describe

end Status

end CollatedStore
