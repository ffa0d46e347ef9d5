import StyledText.Markup.Parameters
import StyledText.Markup.Name
import StyledText.Text.Quoted

/-!
# Handlers and their registry

A handler turns one occurrence of a tag into text, given a context. A registry holds the
handlers by tag name, in ascending order of the names.
-/
namespace StyledText.Markup

/-- One occurrence of a tag, its content already expanded. -/
structure Invocation where
  name : Text
  parameters : Parameters
  content : Text
  selfClosing : Bool := false
  deriving Repr, Inhabited

/-- What a tag stands for, given a context. -/
abbrev Handler (C : Type) := Invocation → C → Text

inductive RegistryError where
  | invalidName (name : Text)
  | unknownTarget (alternative target : Text)
  deriving DecidableEq, Repr

def RegistryError.message : RegistryError → Text
  | .invalidName name =>
    "invalid shortcode name '".toList ++ name ++
      "': expected a letter or '_' followed by letters, digits, '_' or '-'".toList
  | .unknownTarget alternative target =>
    "cannot alias '".toList ++ alternative ++ "' to unregistered shortcode '".toList ++ target ++
      "'".toList

structure Registry (C : Type) where
  entries : List (Text × Handler C) := []

namespace Registry

variable {C : Type}

def empty : Registry C := {}

instance : Inhabited (Registry C) := ⟨empty⟩

def get? (r : Registry C) (name : Text) : Option (Handler C) := r.entries.lookup name

def contains (r : Registry C) (name : Text) : Bool := (r.get? name).isSome

def names (r : Registry C) : List Text := r.entries.map Prod.fst

def size (r : Registry C) : Nat := r.entries.length

def isEmpty (r : Registry C) : Bool := r.entries.isEmpty

/-- Put a handler at its place in the order, over one of the same name. -/
def put (name : Text) (handler : Handler C) : List (Text × Handler C) → List (Text × Handler C)
  | [] => [(name, handler)]
  | (k, h) :: rest =>
    if name = k then (k, handler) :: rest
    else if name < k then (name, handler) :: (k, h) :: rest
    else (k, h) :: put name handler rest

/-- Register a handler under a name. With the new registry comes the handler that it replaces. -/
def exchange (r : Registry C) (name : Text) (handler : Handler C) :
    Except RegistryError (Registry C × Option (Handler C)) :=
  if isName name then .ok (⟨put name handler r.entries⟩, r.get? name)
  else .error (.invalidName name)

/-- Register a handler and let go of the one that it replaces. -/
def register (r : Registry C) (name : Text) (handler : Handler C) :
    Except RegistryError (Registry C) :=
  (r.exchange name handler).map Prod.fst

/-- Register the handler that `target` has now under another name as well. -/
def addAlias (r : Registry C) (alternative target : Text) : Except RegistryError (Registry C) :=
  match r.get? target with
  | none => .error (.unknownTarget alternative target)
  | some handler => r.register alternative handler

/-- Take a name out of the registry. With the rest comes the handler that it had. -/
def take (r : Registry C) (name : Text) : Registry C × Option (Handler C) :=
  (⟨r.entries.filter fun entry => entry.1 ≠ name⟩, r.get? name)

def remove (r : Registry C) (name : Text) : Registry C := (r.take name).1

/-- Register handlers in order; an invalid name is passed over. -/
def ofList (handlers : List (Text × Handler C)) : Registry C :=
  handlers.foldl (fun r (name, handler) => (r.register name handler).toOption.getD r) empty

def describe (r : Registry C) : Text :=
  "HandlerRegistry \x7b names: [".toList ++ Text.join ", ".toList (r.names.map Text.quoted) ++
    "] \x7d".toList

end Registry
end StyledText.Markup
