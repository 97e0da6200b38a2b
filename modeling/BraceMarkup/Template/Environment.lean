/-
  What the names in a template stand for.

  An environment binds names to values (variables) and names to blocks
  (templates).  Binding a name again replaces what it stood for.

  * `Bindings`: names with what they stand for, in the order in which they
    were first bound; `Bindings.get?`, `Bindings.set`;
  * `Environment`: the variables and the templates;
  * `Bindings.get?_set`: what a name stands for after a binding;
  * `Bindings.set_set`: the later of two bindings of a name counts;
  * `Bindings.get?_setAll`: what a name stands for after several bindings.
-/
import BraceMarkup.Entries
import BraceMarkup.Value

namespace BraceMarkup

/-- Names with what they stand for, in the order in which they were first bound. -/
abbrev Bindings (α : Type) := List (String × α)

namespace Bindings

variable {α : Type}

/-- What a name stands for. -/
def get? : Bindings α → String → Option α
  | [], _ => none
  | (key, value) :: rest, name => if key = name then some value else get? rest name

/-- Binds a name, in place of what it stood for. -/
def set : Bindings α → String → α → Bindings α
  | [], name, value => [(name, value)]
  | (key, old) :: rest, name, value =>
    if key = name then (name, value) :: rest else (key, old) :: set rest name value

/-- Binds several names, one after the other. -/
def setAll (bindings : Bindings α) (more : List (String × α)) : Bindings α :=
  more.foldl (fun bindings entry => bindings.set entry.1 entry.2) bindings

/-- A binding gives its name its value and leaves every other name alone. -/
theorem get?_set (bindings : Bindings α) (name other : String) (value : α) :
    (bindings.set name value).get? other =
      if name = other then some value else bindings.get? other := by
  induction bindings with
  | nil => rfl
  | cons entry rest ih =>
    obtain ⟨key, old⟩ := entry
    by_cases hk : key = name <;> by_cases ho : name = other <;> by_cases hko : key = other <;>
      simp_all [get?, set]

/-- The later of two bindings of a name takes the place of the earlier one. -/
@[simp] theorem set_set (bindings : Bindings α) (name : String) (first second : α) :
    (bindings.set name first).set name second = bindings.set name second := by
  induction bindings with
  | nil => simp [set]
  | cons entry rest ih =>
    obtain ⟨key, old⟩ := entry
    by_cases hk : key = name <;> simp [set, hk, ih]

/-- Of added bindings the last one of a name counts, and where there is none, what the name stood
    for before. -/
theorem get?_setAll (bindings : Bindings α) (more : List (String × α)) (name : String) :
    (bindings.setAll more).get? name = (more.reverse.lookup name).or (bindings.get? name) := by
  induction more generalizing bindings with
  | nil => rfl
  | cons entry rest ih =>
    rw [setAll, List.foldl_cons, ← setAll, ih, get?_set, List.reverse_cons, List.lookup_append,
      Option.or_assoc, Entries.lookup_cons_eq]
    by_cases h : entry.1 = name
    · simp [h]
    · simp [h, Ne.symm h]

/-- A binding brings in nothing but itself. -/
theorem mem_set {bindings : Bindings α} {name : String} {value : α} {entry : String × α}
    (h : entry ∈ bindings.set name value) : entry = (name, value) ∨ entry ∈ bindings := by
  induction bindings with
  | nil => exact .inl (List.mem_singleton.1 h)
  | cons first rest ih =>
    rw [set] at h
    split at h
    · exact (List.mem_cons.1 h).imp_right (List.mem_cons_of_mem _)
    · rcases List.mem_cons.1 h with rfl | h
      · exact .inr List.mem_cons_self
      · exact (ih h).imp_right (List.mem_cons_of_mem _)

theorem mem_setAll {bindings : Bindings α} {more : List (String × α)} {entry : String × α}
    (h : entry ∈ bindings.setAll more) : entry ∈ bindings ∨ entry ∈ more := by
  induction more generalizing bindings with
  | nil => exact .inl h
  | cons first rest ih =>
    rcases ih h with h | h
    · exact (mem_set h).elim (fun h => .inr (h ▸ List.mem_cons_self)) .inl
    · exact .inr (List.mem_cons_of_mem _ h)

end Bindings

/-- The variables and the templates of a session. -/
structure Environment where
  values : Bindings Value
  templates : Bindings Block
  deriving Inhabited

/-- The environment in which no name is bound. -/
def Environment.empty : Environment := ⟨[], []⟩

/-- Binds a variable. -/
def Environment.setVariable (env : Environment) (name : String) (value : Value) : Environment :=
  { env with values := env.values.set name value }

@[simp] theorem Environment.setVariable_setVariable (env : Environment) (name : String)
    (first second : Value) :
    (env.setVariable name first).setVariable name second = env.setVariable name second := by
  simp [setVariable]

/-- Binds a template. -/
def Environment.setTemplate (env : Environment) (name : String) (block : Block) : Environment :=
  { env with templates := env.templates.set name block }

/-- Binds several variables, one after the other. -/
def Environment.setVariables (env : Environment) (more : List (String × Value)) : Environment :=
  { env with values := env.values.setAll more }

end BraceMarkup
