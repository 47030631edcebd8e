import SharedWatch.Object
import SharedWatch.Text.Quoted
import SharedWatch.Text.Span

/-!
# Causes of failure

* `StoreFailure`: why a store call or a watch connection failed.  These stay inside the list and
  watch loop, which retries them.
* `SettingsError`: why settings could not be loaded or were refused.
* `WatchError`: everything a caller can be told.

Each type has one function `message` that words its causes.
-/

namespace SharedWatch

/-- A key as it is shown with its ends visible. -/
def ObjectKey.debug (k : ObjectKey) : String :=
  "ObjectKey \x7b namespace: " ++ Text.quoted k.ns ++ ", name: " ++ Text.quoted k.name ++ " \x7d"

/-- Why a store call or a watch connection failed. -/
inductive StoreFailure
  /-- The version asked for is no longer served; a full read is needed. -/
  | expired (version : String)
  /-- The store could not be reached. -/
  | unavailable (reason : String)
  /-- The call took longer than it may. -/
  | timeout (limit : Span)
deriving DecidableEq

/-- The wording of a store failure. -/
def StoreFailure.message : StoreFailure → String
  | expired version => "Resource version " ++ version ++ " is too old"
  | unavailable reason => "Store unavailable: " ++ reason
  | timeout limit => "Store call timed out after " ++ limit.text

/-- Why settings could not be loaded or were refused. -/
inductive SettingsError
  /-- A setting without a default is missing. -/
  | missing (property : String)
  | malformedFile
  /-- A setting holds a value of the wrong kind: what was found, what was expected, the setting's
  name and the place it was read from, as far as they are known. -/
  | wrongKind (found expected : String) (property origin : Option String)
  /-- A setting is refused, for the reason that is given. -/
  | refused (reason : String)
  /-- A settings file cannot be used, for the reason that is given. -/
  | unusableFile (reason : String)
deriving DecidableEq

/-- The wording of a settings error. -/
def SettingsError.message : SettingsError → String
  | missing property => "configuration property " ++ Text.quoted property ++ " not found"
  | malformedFile => "configuration file is not well formed"
  | wrongKind found expected property origin =>
    "invalid type: " ++ found ++ ", expected " ++ expected
      ++ (property.elim "" fun p => " for key `" ++ p ++ "`")
      ++ (origin.elim "" fun o => " in " ++ o)
  | refused reason => reason
  | unusableFile reason => reason

/-- Everything a caller can be told. -/
inductive WatchError
  | emptyNamespace
  /-- The name of an object is empty. -/
  | emptyName
  /-- The name of an owner is empty. -/
  | emptyOwner
  /-- The registration was not issued by the multiplexer it was presented to. -/
  | foreignRegistration (key : ObjectKey) (handler : Nat)
  /-- The key has no stream, or a newer one than the registration's. -/
  | noMonitor (key : ObjectKey)
  /-- The stream does not know the registration. -/
  | noHandler (key : ObjectKey) (handler : Nat)
  | noOwner (owner : OwnerKey)
  /-- The stream has synced and the object does not exist. -/
  | noObject (key : ObjectKey)
  | alreadyRegistered (owner : OwnerKey)
  | streamStopped (key : ObjectKey)
  /-- The cached object belongs to another key. -/
  | keyMismatch (expected found : ObjectKey)
  /-- The bounded wait for the first sync has expired. -/
  | syncTimeout (key : ObjectKey) (limit : Span)
  /-- The caller gave up waiting for the first sync. -/
  | cancelled (key : ObjectKey)
  /-- The loop has used up its retries. -/
  | abandoned (key : ObjectKey) (reason : String)
  /-- A store failure that reached a caller. -/
  | store (cause : StoreFailure)
  /-- A failure to load or accept settings. -/
  | settings (cause : SettingsError)
deriving DecidableEq

namespace WatchError

/-- The wording of an error. -/
def message : WatchError → String
  | emptyNamespace => "Namespace cannot be empty"
  | emptyName => "Name cannot be empty"
  | emptyOwner => "Owner name cannot be empty"
  | foreignRegistration key handler =>
    "Registration " ++ toString handler ++ " for " ++ key.text ++ " was issued by another multiplexer"
  | noMonitor key => "No active monitor for " ++ key.text
  | noHandler key handler =>
    "Handler " ++ toString handler ++ " is not registered for " ++ key.text
  | noOwner owner => "No subscription registered for owner " ++ owner.text
  | noObject key => "Object " ++ key.text ++ " not found"
  | alreadyRegistered owner => "Owner " ++ owner.text ++ " is already registered"
  | streamStopped key => "Watch stream for " ++ key.text ++ " has been stopped"
  | keyMismatch expected found =>
    "Cached object " ++ found.text ++ " does not match watched key " ++ expected.text
  | syncTimeout key limit =>
    "Timed out after " ++ limit.text ++ " waiting for " ++ key.text ++ " to sync"
  | cancelled key => "Cancelled while waiting for " ++ key.text ++ " to sync"
  | abandoned key reason => "Watch for " ++ key.text ++ " abandoned: " ++ reason
  | store cause => cause.message
  | settings cause => cause.message

/-- Something that was asked for does not exist. -/
def isNotFound : WatchError → Bool
  | noMonitor _ | noHandler _ _ | noOwner _ | noObject _ => true
  | _ => false

/-- The watched object itself does not exist. -/
def isObjectDeleted : WatchError → Bool
  | noObject _ => true
  | _ => false

/-- The owner already holds a subscription. -/
def isAlreadyRegistered : WatchError → Bool
  | alreadyRegistered _ => true
  | _ => false

end WatchError

end SharedWatch
