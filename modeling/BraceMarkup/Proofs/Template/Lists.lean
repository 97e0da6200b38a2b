/-
  Lists as text.

  A list can be printed in three ways.  A reference prints it with its items
  between brackets, `#intersperse` with a separator between its items, and
  `#foreach`, with a reference to its variable as the body, one item after the
  other.  As long as no deferred block stands in the list, all three print an
  item as its own text and evaluate nothing for it, and only the loop binds
  anything.

  * `join_eq_intercalate`: texts one after the other;
  * `Level.Regular.mapM_print`: plain values are printed as they are;
  * `outcome_intersperse`: a list with a separator;
  * `outcome_repeatFor_reference`, `outcome_foreach`: a loop over a list, item
    by item;
  * `Engine.print_list`: **all ways of printing a list agree**.
-/
import BraceMarkup.Proofs.Template.Wrapped

namespace BraceMarkup

open Evaluation

/-! ## Texts of items -/

/-- Texts with nothing between them. -/
theorem join_eq_intercalate (texts : List String) :
    String.join texts = String.intercalate "" texts := by
  induction texts with
  | nil => rfl
  | cons text rest ih =>
    cases rest with
    | nil => simp
    | cons next rest => simp [ih]

/-- The environment behind a loop: the variable stands for the last item, if there was one. -/
def Environment.afterLoop (E : Environment) (name : String) (items : List Value) : Environment :=
  items.getLast?.elim E (E.setVariable name)

/-- A loop goes on in the environment that its first item leaves. -/
theorem Environment.afterLoop_cons (E : Environment) (name : String) (item : Value)
    (rest : List Value) :
    E.afterLoop name (item :: rest) = (E.setVariable name item).afterLoop name rest := by
  rw [afterLoop, afterLoop, List.getLast?_cons]
  cases rest.getLast? with
  | none => rfl
  | some last => simp

/-! ## Values without deferred blocks -/

namespace Level.Regular

variable {c : Config} {l : Level} {v : Value} {s s' : EvaluationState}

/-- The text of a block with a plain value. -/
theorem outcome_blockText (h : l.Regular c) {b : Block}
    (hb : (l.block b).outcome s = (.ok (some v), s')) (hv : v.Plain) :
    (l.blockText b).outcome s = (.ok v.display, s') := by
  rw [Level.blockText, outcome_bind, hb]
  simp only [printResult, h.print hv, outcome_pure]

/-- Plain values are printed as they are. -/
theorem mapM_print (h : l.Regular c) {items : List Value} (hplain : Value.PlainItems items) :
    items.mapM l.print = pure (items.map Value.display) := by
  induction items with
  | nil => rfl
  | cons item rest ih =>
    rw [List.mapM_cons, h.print hplain.1, ih hplain.2, pure_bind, pure_bind, List.map_cons]

end Level.Regular

theorem Value.Plain.kind_ne {v : Value} (h : v.Plain) : v.kind ≠ .deferred := by
  cases v with
  | deferred => exact h.elim
  | text | number | boolean | list => exact Kind.noConfusion

/-! ## Lists -/

section
variable {c : Config} {n depth a : Nat} {E : Environment} {xs : Block} {items : List Value}

/-- The items of a list that a variable stands for. -/
theorem outcome_listItems (hxs : E.values.get? (bindingName xs) = some (.list items)) (l : Level)
    (directive : String) :
    (l.listItems directive xs).outcome ⟨E, a⟩ = (.ok items, ⟨E, a⟩) := by
  rw [Level.listItems, outcome_bind, outcome_boundVariable, hxs]
  rfl

/-- A list with a separator between its items. -/
theorem outcome_intersperse (hxs : E.values.get? (bindingName xs) = some (.list items))
    (hplain : Value.PlainItems items) (separator : Block) (ha : a < maxActive)
    (hn : maxActive ≤ a + n) :
    ((level c (directive c) n depth).block [.element "intersperse" [xs, separator]]).outcome
        ⟨E, a⟩ =
      (.ok (some (.text (String.intercalate separator.textContent (items.map Value.display)))),
        ⟨E, a⟩) := by
  obtain ⟨n, rfl⟩ : ∃ m, n = m + 1 := Nat.exists_eq_add_one.2 (by omega)
  have hprint := (level_regular c (directive c) n depth).mapM_print hplain
  simp only [outcome_element ha, directive_intersperse, outcome_bind, outcome_listItems hxs,
    hprint, pure_bind, outcome_pure, Nat.add_sub_cancel]

/-- A loop whose body is a reference to its variable: induction on the items that are left, in
    whatever environment those before them have left. -/
theorem outcome_repeatFor_reference {name : String} {binder : Block}
    (hbinder : bindingName binder = name) (hplain : Value.PlainItems items)
    (ha : a < maxActive) (hn : maxActive ≤ a + n) :
    ((level c (directive c) n depth).repeatFor name [.element "" [binder]] items).outcome ⟨E, a⟩ =
      (.ok (String.join (items.map Value.display)), ⟨E.afterLoop name items, a⟩) := by
  induction items generalizing E with
  | nil => rfl
  | cons item rest ih =>
    have hitem : (E.setVariable name item).values.get? (bindingName binder) = some item := by
      rw [Environment.setVariable, Bindings.get?_set, if_pos hbinder.symm]
    have hbody := (level_regular c (directive c) n depth).outcome_blockText
      ((Block.Holds.reference hitem hplain.1.kind_ne).outcome n a ha hn) hplain.1
    simp only [Level.repeatFor, outcome_bind, outcome_change, hbody, ih hplain.2, outcome_pure,
      Environment.afterLoop_cons, List.map_cons, String.join_cons]

/-- A loop over a list, with a reference to its variable as the body. -/
theorem outcome_foreach (hxs : E.values.get? (bindingName xs) = some (.list items))
    (hplain : Value.PlainItems items) {item binder : Block}
    (hbinder : bindingName binder = bindingName item) (ha : a + 1 < maxActive)
    (hn : maxActive ≤ a + n) :
    ((level c (directive c) n depth).block
        [.element "foreach" [item, xs, [.element "" [binder]]]]).outcome ⟨E, a⟩ =
      (.ok (some (.text (String.join (items.map Value.display)))),
        ⟨E.afterLoop (bindingName item) items, a⟩) := by
  obtain ⟨n, rfl⟩ : ∃ m, n = m + 1 := Nat.exists_eq_add_one.2 (by omega)
  have hloop : ((level c (directive c) n depth).repeatFor (bindingName item)
      [.element "" [binder]] items).outcome ⟨E, a + 1⟩ =
        (.ok (String.join (items.map Value.display)),
          ⟨E.afterLoop (bindingName item) items, a + 1⟩) :=
    outcome_repeatFor_reference hbinder hplain ha (by omega)
  simp only [outcome_element (Nat.lt_of_succ_lt ha), directive_foreach, outcome_bind,
    outcome_listItems hxs, hloop, outcome_pure, Nat.add_sub_cancel]

end

namespace Engine

/-- **All ways of printing a list agree.**  Let a variable stand for a list in which no deferred
    block stands, at any depth, and let `a` elements be active.  If there is room for one more, a
    reference to the variable has the text of the list, and `#intersperse` the texts of the items
    with the text of its separator between them; neither binds anything.  If there is room for two
    more, a loop over the list with a reference to its variable as the body has the text that
    `#intersperse` has with an empty separator, and leaves its variable bound to the last item, if
    there is one. -/
theorem print_list {c : Config} {E : Environment} {xs : Block} {items : List Value}
    (hxs : E.values.get? (bindingName xs) = some (.list items))
    (hplain : Value.PlainItems items) (depth a : Nat) :
    let text (b : Block) := ((level c (directive c) maxActive depth).blockText b).outcome ⟨E, a⟩
    (a + 1 ≤ maxActive →
      text [.element "" [xs]] = (.ok (Value.list items).display, ⟨E, a⟩) ∧
      ∀ separator : Block, text [.element "intersperse" [xs, separator]] =
        (.ok (String.intercalate separator.textContent (items.map Value.display)), ⟨E, a⟩)) ∧
    (a + 2 ≤ maxActive → ∀ item binder : Block, bindingName binder = bindingName item →
      text [.element "foreach" [item, xs, [.element "" [binder]]]] =
        ((text [.element "intersperse" [xs, []]]).1,
          ⟨E.afterLoop (bindingName item) items, a⟩)) := by
  intro text
  have hreg := level_regular c (directive c) maxActive depth
  have hn : maxActive ≤ a + maxActive := Nat.le_add_left ..
  have hseparated : a + 1 ≤ maxActive → ∀ separator : Block,
      text [.element "intersperse" [xs, separator]] =
        (.ok (String.intercalate separator.textContent (items.map Value.display)), ⟨E, a⟩) :=
    fun ha separator =>
      hreg.outcome_blockText (outcome_intersperse hxs hplain separator ha hn) trivial
  refine ⟨fun ha => ⟨?_, hseparated ha⟩, fun ha item binder hbinder => ?_⟩
  · have hvalue : Block.Holds c depth E (.list items) 1 [.element "" [xs]] :=
      Block.Holds.reference hxs Value.Kind.noConfusion
    exact hreg.outcome_blockText (hvalue.outcome maxActive a ha hn) hplain
  · rw [hseparated (by omega)]
    have hloop := hreg.outcome_blockText (outcome_foreach hxs hplain hbinder ha hn) trivial
    rw [Value.display, join_eq_intercalate] at hloop
    exact hloop

/-- A list with lists in it, where there is just room, and a loop whose variable is that of the
    list. -/
theorem print_list_nested :
    let items : List Value := [.text "p", .list [.boolean true, .text "q"], .list []]
    let E : Environment := ⟨[("xs", .list items)], []⟩
    let xs : Block := [.text "xs"]
    let text (b : Block) := ((topLevel .default).blockText b).outcome ⟨E, 126⟩
    (E.values.get? (bindingName xs) = some (.list items) ∧ Value.PlainItems items) ∧
      text [.element "" [xs]] = (.ok "[p, [true, q], []]", ⟨E, 126⟩) ∧
      text [.element "intersperse" [xs, [.text " - "]]] = (.ok "p - [true, q] - []", ⟨E, 126⟩) ∧
      text [.element "foreach" [xs, xs, [.element "" [xs]]]] =
        (.ok "p[true, q][]", ⟨⟨[("xs", .list [])], []⟩, 126⟩) := by
  intro items E xs text
  have hname : bindingName xs = "xs" := by decide +kernel
  have hxs : E.values.get? (bindingName xs) = some (.list items) := by
    rw [hname]
    rfl
  have hplain : Value.PlainItems items := ⟨trivial, ⟨trivial, trivial, trivial⟩, trivial, trivial⟩
  obtain ⟨hone, hloop⟩ := print_list (c := .default) hxs hplain maxPrintDepth 126
  obtain ⟨hreference, hseparated⟩ := hone (by decide)
  have hlist : (Value.list items).display = "[p, [true, q], []]" := by decide +kernel
  have hdashes : String.intercalate (Block.textContent [.text " - "]) (items.map Value.display) =
      "p - [true, q] - []" := by decide +kernel
  have hjoined : String.intercalate (Block.textContent []) (items.map Value.display) =
      "p[true, q][]" := by decide +kernel
  have hafter : E.afterLoop (bindingName xs) items = ⟨[("xs", .list [])], []⟩ := by
    rw [hname]
    rfl
  have hempty := hseparated []
  rw [hjoined] at hempty
  have hbound := hloop (by decide) xs xs rfl
  rw [hempty, hafter] at hbound
  exact ⟨⟨hxs, hplain⟩, hlist ▸ hreference, hdashes ▸ hseparated [.text " - "], hbound⟩

end Engine

end BraceMarkup
