import BridgeBidding.Convention.Bergen
import BridgeBidding.Convention.Dont
import BridgeBidding.Convention.Gerber
import BridgeBidding.Convention.Landy
import BridgeBidding.Convention.Sayc
import BridgeBidding.Convention.Stayman

/-!
# Registries of conventions

A registry holds conventions in the order in which they were registered, each under an id of its
own.  `Registry.register` takes a convention whose id is free, whose tree is well formed and which
has rules if its tree has bids.  `Registry.standard` holds the built-in conventions.

What changes a registry is a `Registry.Operation`.  An operation may fail at any of its steps, and
then the registry stays as the steps before left it.  Registering a convention examines it in three
steps and stores it in the last one (`Registry.perform_register`).
-/

set_option autoImplicit false
set_option relaxedAutoImplicit false

namespace BridgeBidding

/-- Why a convention cannot be registered or found, with the ids registered at the time. -/
inductive RegistryError where
  | duplicate (id : String) (registered : List String)
  | unknown (id : String) (registered : List String)
  | tree (error : TreeError)

namespace RegistryError

/-- The ids in one line. -/
def available (registered : List String) : String :=
  let ids := String.intercalate ", " registered
  if ids.isEmpty then "(none)" else ids

/-- The message of the error. -/
def message : RegistryError → String
  | duplicate id _ => "Convention \"" ++ id ++ "\" is already registered"
  | unknown id registered =>
    "Unknown convention \"" ++ id ++ "\". Available: " ++ available registered
  | tree error => error.message

end RegistryError

/-- Conventions in the order of their registration. -/
structure Registry where
  conventions : List Convention := []

namespace Registry

/-- The registry without conventions. -/
def empty : Registry := {}

/-- The ids in order. -/
def ids (registry : Registry) : List String :=
  registry.conventions.map Convention.id

/-- The convention under an id. -/
def find? (registry : Registry) (id : String) : Option Convention :=
  registry.conventions.find? fun convention ↦ convention.id == id

/-- An id is registered. -/
def contains (registry : Registry) (id : String) : Bool :=
  registry.ids.contains id

/-- The convention under an id, or the error that there is none. -/
def get (registry : Registry) (id : String) : Except RegistryError Convention :=
  match registry.find? id with
  | some convention => .ok convention
  | none => .error (.unknown id registry.ids)

/-- The registry with the convention under its id: in the place of the one that had the id, or else
at the end. -/
def store (registry : Registry) (convention : Convention) : Registry where
  conventions :=
    if registry.contains convention.id then
      registry.conventions.map fun held ↦ if held.id == convention.id then convention else held
    else
      registry.conventions ++ [convention]

/-! ### Operations -/

/-- What is done to a registry, step by step.  A step that fails ends the operation; it undoes
nothing. -/
abbrev Operation (α : Type) : Type := ExceptT RegistryError (StateM Registry) α

/-- What the operation comes to, and the registry after it. -/
def perform {α : Type} (registry : Registry) (operation : Operation α) :
    Except RegistryError α × Registry :=
  operation.run.run registry

/-- Registers a further convention.  Its id is examined first, then its tree, then its rules. -/
def register (convention : Convention) : Operation Unit := do
  let registry ← getThe Registry
  if registry.contains convention.id then
    throw (.duplicate convention.id registry.ids)
  ofExcept (convention.tree.examine.mapError .tree)
  if convention.rules.isEmpty && !convention.tree.bids.isEmpty then
    throw (.tree (.noRules convention.id))
  modify fun registry ↦ registry.store convention

/-- Forgets all conventions. -/
def clear : Operation Unit := set empty

section Steps

variable {α : Type} (registry : Registry)

@[simp] theorem perform_get_bind (next : Registry → Operation α) :
    registry.perform (getThe Registry >>= next) = registry.perform (next registry) :=
  rfl

theorem perform_bind_of_ok {β : Type} {operation : Operation α} {next : α → Operation β} {value : α}
    {registry changed : Registry} (h : registry.perform operation = (.ok value, changed)) :
    registry.perform (operation >>= next) = changed.perform (next value) := by
  rw [perform] at h
  rw [perform, ExceptT.run_bind, StateT.run_bind, h]
  rfl

@[simp] theorem perform_throw_bind {β : Type} (error : RegistryError) (next : α → Operation β) :
    registry.perform (throw error >>= next) = (.error error, registry) :=
  rfl

@[simp] theorem perform_ofExcept_bind {ε β : Type} (result : Except ε α) (wrap : ε → RegistryError)
    (next : α → Operation β) :
    registry.perform (ofExcept (result.mapError wrap) >>= next) =
      match result with
      | .ok value => registry.perform (next value)
      | .error error => (.error (wrap error), registry) := by
  cases result <;> rfl

@[simp] theorem perform_modify (change : Registry → Registry) :
    registry.perform (modify change) = (.ok (), change registry) :=
  rfl

/-- A convention is refused or stored, and it is stored only after all that could be wrong with it
has been examined. -/
theorem perform_register (convention : Convention) :
    registry.perform (register convention) =
      if registry.contains convention.id then
        (.error (.duplicate convention.id registry.ids), registry)
      else
        match convention.tree.examine with
        | .error error => (.error (.tree error), registry)
        | .ok _ =>
          if convention.rules.isEmpty && !convention.tree.bids.isEmpty then
            (.error (.tree (.noRules convention.id)), registry)
          else
            (.ok (), registry.store convention) := by
  rw [register, perform_get_bind]
  by_cases hid : registry.contains convention.id = true
  · simp only [if_pos hid, perform_throw_bind]
  · simp only [if_neg hid, perform_ofExcept_bind]
    cases convention.tree.examine with
    | error error => rfl
    | ok =>
      simp only
      split
      · exact perform_throw_bind ..
      · exact perform_modify ..

@[simp] theorem perform_clear : registry.perform clear = (.ok (), empty) :=
  rfl

end Steps

/-! ### The built-in conventions -/

/-- The built-in conventions. -/
def builtin : List Convention :=
  [Stayman.convention, Gerber.convention, Bergen.convention, Landy.convention, Dont.convention,
    Sayc.convention]

/-- The registry of the built-in conventions. -/
def standard : Registry := { conventions := builtin }

end Registry

end BridgeBidding
