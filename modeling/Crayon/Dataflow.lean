import Mathlib

/-!
Graphs of computations. A node is a source, which has values of its own, or it applies
an operation to constants and to the values of other nodes (`Graph`). What values the
nodes have is a relation (`Values`), since operations need not be functions. Graphs
grow, and values stay; and where every node is one thing only and operations are
functions, a node has one value at most (`Values.unique`).
-/
namespace Crayon.Dataflow
universe u v w
variable {κ : Type u} {φ : Type v} {ν : Type w}

/-- An argument of an operation: a constant, or a node. -/
inductive Arg (κ : Type u) (ν : Type w) where
  | const (value : ν)
  | node (key : κ)

/-- The nodes: which values a source has, and which operation is applied to what. -/
structure Graph (κ : Type u) (φ : Type v) (ν : Type w) where
  source : κ → ν → Prop
  applies : κ → φ → List (Arg κ ν) → Prop

/-- The first graph is a part of the second. -/
structure Graph.Part (G H : Graph κ φ ν) : Prop where
  source : ∀ {key value}, G.source key value → H.source key value
  applies : ∀ {key operation args}, G.applies key operation args → H.applies key operation args

/-- The values that arguments can have together, where `executes` tells what an operation can return. -/
inductive Values (executes : φ → List ν → ν → Prop) (G : Graph κ φ ν) : List (Arg κ ν) → List ν → Prop where
  | nil : Values executes G [] []
  | const {value : ν} {args : List (Arg κ ν)} {values : List ν} (rest : Values executes G args values) :
      Values executes G (.const value :: args) (value :: values)
  | source {key : κ} {value : ν} {args : List (Arg κ ν)} {values : List ν} (given : G.source key value)
      (rest : Values executes G args values) : Values executes G (.node key :: args) (value :: values)
  | applied {key : κ} {operation : φ} {value : ν} {inputs args : List (Arg κ ν)} {taken values : List ν}
      (node : G.applies key operation inputs) (arguments : Values executes G inputs taken)
      (result : executes operation taken value) (rest : Values executes G args values) :
      Values executes G (.node key :: args) (value :: values)

/-- The node can have the value. -/
def Value (executes : φ → List ν → ν → Prop) (G : Graph κ φ ν) (key : κ) (value : ν) : Prop :=
  Values executes G [.node key] [value]

section
variable {executes : φ → List ν → ν → Prop} {G H : Graph κ φ ν} {key : κ} {value : ν} {args : List (Arg κ ν)}
  {values : List ν}

theorem Values.part (part : G.Part H) (has : Values executes G args values) : Values executes H args values := by
  induction has with
  | nil => exact .nil
  | const rest ih => exact .const ih
  | source given rest ih => exact .source (part.source given) ih
  | applied node arguments result rest ih ih' => exact .applied (part.applies node) ih result ih'

theorem Value.part (part : G.Part H) (has : Value executes G key value) : Value executes H key value := Values.part part has

/-- Values of arguments are put together one by one. -/
theorem Values.node (has : Value executes G key value) (rest : Values executes G args values) :
    Values executes G (.node key :: args) (value :: values) := by
  cases has with
  | source given _ => exact .source given rest
  | applied node arguments result _ => exact .applied node arguments result rest

/-- Every node is a source with one value, or applies one operation to one list of arguments. -/
structure Graph.Plain (G : Graph κ φ ν) : Prop where
  source : ∀ {key value value'}, G.source key value → G.source key value' → value = value'
  applies : ∀ {key operation operation' args args'}, G.applies key operation args → G.applies key operation' args' →
    operation = operation' ∧ args = args'
  apart : ∀ {key value operation args}, G.source key value → ¬ G.applies key operation args

theorem Values.unique (plain : G.Plain)
    (functional : ∀ operation taken value value', executes operation taken value → executes operation taken value' → value = value')
    {values' : List ν} (has : Values executes G args values) (has' : Values executes G args values') : values = values' := by
  induction has generalizing values' with
  | nil =>
    cases has'
    rfl
  | const rest ih =>
    cases has' with
    | const rest' => rw [ih rest']
  | source given rest ih =>
    cases has' with
    | source given' rest' => rw [plain.source given given',ih rest']
    | applied node' arguments' result' rest' => exact absurd node' (plain.apart given)
  | applied node arguments result rest ih ih' =>
    cases has' with
    | source given' rest' => exact absurd node (plain.apart given')
    | applied node' arguments' result' rest' =>
      obtain ⟨rfl,rfl⟩ := plain.applies node node'
      obtain rfl := ih arguments'
      rw [functional _ _ _ _ result result',ih' rest']

theorem Value.unique (plain : G.Plain)
    (functional : ∀ operation taken value value', executes operation taken value → executes operation taken value' → value = value')
    {value' : ν} (has : Value executes G key value) (has' : Value executes G key value') : value = value' :=
  (List.cons.inj (Values.unique plain functional has has')).1

end
end Crayon.Dataflow
