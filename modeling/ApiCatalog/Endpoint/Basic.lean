import ApiCatalog.Comment.Basic
import ApiCatalog.OrderedMap

/-!
# Endpoints

What is known about an endpoint: its address pattern, the request methods it answers, and the
handler that serves it, with the comments and the declared parameters of the handler.
-/

namespace ApiCatalog

/-- A declared parameter of a handler method. -/
structure Parameter where
  name : String
  /-- The declared type, if there is one. -/
  typeName : Option String := none
  /-- Whether the type is a primitive one. -/
  builtin : Bool := false
  /-- Whether the type is an entity that is bound by its id. -/
  entity : Bool := false
  /-- The declared default value, as text. -/
  default : Option String := none
deriving Repr, DecidableEq, Inhabited

/-- A method that serves an endpoint. -/
structure HandlerMethod where
  /-- The type that declares the method. -/
  owner : String
  name : String
  comment : Comment := {}
  /-- The comment of the declaring type. -/
  ownerComment : Comment := {}
  parameters : List Parameter := []
deriving Repr, DecidableEq, Inhabited

namespace HandlerMethod

/-- Owner and method in one name. -/
def action (m : HandlerMethod) : String := m.owner ++ "@" ++ m.name

/-- The comments that describe the method, its own first. -/
def comments (m : HandlerMethod) : List Comment := [m.comment, m.ownerComment]

/-- The first declared parameter of a name, in any case. -/
def parameter? (m : HandlerMethod) (name : String) : Option Parameter :=
  m.parameters.find? fun p => Text.sameName p.name name

end HandlerMethod

/-- What serves an endpoint. -/
inductive Handler where
  | method (m : HandlerMethod)
  /-- A function without a name, which cannot be documented. -/
  | anonymous
deriving Repr, DecidableEq, Inhabited

namespace Handler

/-- How the handler is referred to. -/
def action : Handler → String
  | .method m => m.action
  | .anonymous => "Closure"

/-- The method, if the handler is one. -/
def method? : Handler → Option HandlerMethod
  | .method m => some m
  | .anonymous => none

end Handler

/-- The members of a list without repetitions, each where it comes first. -/
def distinct : List String → List String
  | [] => []
  | x :: xs => x :: (distinct xs).filter (· ≠ x)

theorem mem_distinct {x : String} {xs : List String} : x ∈ distinct xs ↔ x ∈ xs := by
  induction xs with
  | nil => simp [distinct]
  | cons y ys ih =>
    by_cases h : x = y
    · simp [distinct, h]
    · simp [distinct, ih, h]

theorem nodup_distinct (xs : List String) : (distinct xs).Nodup := by
  induction xs with
  | nil => simp [distinct]
  | cons y ys ih =>
    simp only [distinct, List.nodup_cons, List.mem_filter, decide_eq_true_eq]
    exact ⟨fun h => h.2 rfl, ih.filter _⟩

/-- An entry of a route table. -/
structure Endpoint where
  /-- The address pattern, with placeholders in braces. -/
  uri : String
  /-- The name of the route. -/
  name : Option String := none
  /-- The request methods as they are declared. -/
  declaredMethods : List String
  /-- Patterns that the values of placeholders must match. -/
  constraints : OrderedMap String := .empty
  handler : Handler
deriving DecidableEq

namespace Endpoint

/-- The request methods in capitals, in order of declaration, without `HEAD` and repetitions. -/
def methods (e : Endpoint) : List String :=
  distinct ((e.declaredMethods.map Text.capitals).filter (· ≠ "HEAD"))

/-- How the endpoint is referred to in reports. -/
def label (e : Endpoint) : String :=
  "[" ++ ",".intercalate e.methods ++ "] " ++ e.uri ++ " at " ++ e.handler.action

theorem mem_methods {e : Endpoint} {m : String} :
    m ∈ e.methods ↔ m ≠ "HEAD" ∧ ∃ d ∈ e.declaredMethods, Text.capitals d = m := by
  simp [methods, mem_distinct, and_comm]

end Endpoint

end ApiCatalog
