/-!
Visibility of stored values: private to one device, or shared by the devices of an account.
-/

namespace ScopedStore

inductive Scope where
  | device
  | account
  deriving DecidableEq

namespace Scope

def name : Scope → String
  | device => "device"
  | account => "account"

def ofName? (text : String) : Option Scope :=
  [device, account].find? (·.name = text)

theorem ofName?_name (scope : Scope) : ofName? scope.name = some scope := by
  cases scope <;> decide

end Scope

end ScopedStore
