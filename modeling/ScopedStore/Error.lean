/-!
Failures of the store contract and of the listener registry, and the text each is reported with.
-/

namespace ScopedStore

/-- The payload is the part of the report that depends on the failing call. -/
inductive StoreError where
  | invalidLength (detail : String)
  | unknownKey
  | notExist
  | unavailable (reason : String)
  | general (detail : String)
  | write (detail : String)
  | notSupported (feature : String)
  deriving DecidableEq

namespace StoreError

def message : StoreError → String
  | invalidLength detail => "store invalid input length: " ++ detail
  | unknownKey => "store unknown key"
  | notExist => "store namespace does not exist"
  | unavailable reason => "store unavailable: " ++ reason
  | general detail => "store general failure: " ++ detail
  | write detail => "store write error: " ++ detail
  | notSupported feature => "store operation not supported: " ++ feature

def kind : StoreError → String
  | invalidLength _ => "InvalidLength"
  | unknownKey => "UnknownKey"
  | notExist => "NotExist"
  | unavailable _ => "Unavailable"
  | general _ => "General"
  | write _ => "Write"
  | notSupported _ => "NotSupported"

/-- The error of a given kind; the two kinds without a payload ignore the detail. -/
def ofKind? (kind detail : String) : Option StoreError :=
  [invalidLength detail, unknownKey, notExist, unavailable detail, general detail, write detail,
    notSupported detail].find? (·.kind = kind)

end StoreError

inductive ListenerError where
  | alreadyRegistered
  | notRegistered
  deriving DecidableEq

namespace ListenerError

def message : ListenerError → String
  | alreadyRegistered => "listener already registered"
  | notRegistered => "listener not registered"

def kind : ListenerError → String
  | alreadyRegistered => "AlreadyRegistered"
  | notRegistered => "NotRegistered"

end ListenerError

end ScopedStore
