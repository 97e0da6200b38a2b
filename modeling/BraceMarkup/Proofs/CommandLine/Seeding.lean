/-
  The variables that a template starts with.

  A template is evaluated in a session that the command seeds: with the members
  of a JSON object, if a file with one is named, and with the assignments among
  the arguments.  Of members with the same name the last one counts, and so does
  the last assignment to a name, in front of any member.  Where one of them
  gives no value no session is started, and nothing is evaluated.

  * `Json.StandsFor`, `Json.Unusable`: the value that a JSON value stands for,
    and those that stand for none;
  * `Assigns`, `LastAssigned`: what an assignment, and the last of several to a
    name, gives the name;
  * `ContextHolds`, `ContextUnusable`, `Unseedable`: the members of the context,
    and why no session can be started;
  * `Seeds`: what a name stands for at the start;
  * `templateEmission`: what becomes of a template, whatever evaluates it;
  * `templateEmission_seeded`: **a session is started with exactly these
    variables, or none at all**.
-/
import BraceMarkup.Proofs.CommandLine.AllOrNothing
import BraceMarkup.Proofs.Json.ReadBack
import BraceMarkup.Proofs.Template.Termination

namespace BraceMarkup

/-! ## Values from JSON -/

mutual

/-- The value that a JSON value stands for; an array stands for the list of what its items stand
    for. -/
inductive Json.StandsFor : Json → Value → Prop
  | boolean {b : Bool} : Json.StandsFor (.boolean b) (.boolean b)
  | number {n : Json.Number} : Json.StandsFor (.number n) (.number n.toFloat)
  | string {s : String} : Json.StandsFor (.string s) (.text s)
  | array {items : List Json} {values : List Value} : Json.ItemsStandFor items values →
      Json.StandsFor (.array items) (.list values)

/-- The values that some JSON values stand for, in their order. -/
inductive Json.ItemsStandFor : List Json → List Value → Prop
  | nil : Json.ItemsStandFor [] []
  | cons {item : Json} {value : Value} {items : List Json} {values : List Value} :
      Json.StandsFor item value → Json.ItemsStandFor items values →
      Json.ItemsStandFor (item :: items) (value :: values)

end

/-- A null or an object, or an array with one of them in it, at any depth of arrays. -/
inductive Json.Unusable : Json → Prop
  | null : Json.Unusable .null
  | object {members : List (String × Json)} : Json.Unusable (.object members)
  | array {items : List Json} {item : Json} : item ∈ items → Json.Unusable item →
      Json.Unusable (.array items)

mutual

theorem Value.ofJson_eq_ok_iff : ∀ {json : Json} {v : Value},
    Value.ofJson json = .ok v ↔ json.StandsFor v
  | .null, _ => ⟨nofun, nofun⟩
  | .boolean _, _ => ⟨fun h => Except.ok.inj h ▸ .boolean, fun | .boolean => rfl⟩
  | .number _, _ => ⟨fun h => Except.ok.inj h ▸ .number, fun | .number => rfl⟩
  | .string _, _ => ⟨fun h => Except.ok.inj h ▸ .string, fun | .string => rfl⟩
  | .array items, v => by
    rw [Value.ofJson, bind_eq_ok_iff]
    constructor
    · rintro ⟨values, hvalues, ⟨⟩⟩
      exact .array (Value.ofJsonItems_eq_ok_iff.1 hvalues)
    · rintro (_ | _ | _ | hvalues)
      exact ⟨_, Value.ofJsonItems_eq_ok_iff.2 hvalues, rfl⟩
  | .object _, _ => ⟨nofun, nofun⟩

theorem Value.ofJsonItems_eq_ok_iff : ∀ {items : List Json} {values : List Value},
    Value.ofJsonItems items = .ok values ↔ Json.ItemsStandFor items values
  | [], _ => ⟨fun h => Except.ok.inj h ▸ .nil, fun | .nil => rfl⟩
  | item :: rest, values => by
    simp only [Value.ofJsonItems, bind_eq_ok_iff]
    constructor
    · rintro ⟨value, hvalue, values, hvalues, ⟨⟩⟩
      exact .cons (Value.ofJson_eq_ok_iff.1 hvalue) (Value.ofJsonItems_eq_ok_iff.1 hvalues)
    · rintro (_ | ⟨hvalue, hvalues⟩)
      exact ⟨_, Value.ofJson_eq_ok_iff.2 hvalue, _, Value.ofJsonItems_eq_ok_iff.2 hvalues, rfl⟩

end

mutual

theorem Value.exists_ofJson_error_iff : ∀ json : Json,
    (∃ e, Value.ofJson json = .error e) ↔ json.Unusable
  | .null => ⟨fun _ => .null, fun _ => ⟨_, rfl⟩⟩
  | .boolean _ => ⟨nofun, nofun⟩
  | .number _ => ⟨nofun, nofun⟩
  | .string _ => ⟨nofun, nofun⟩
  | .array items => by
    simp only [Value.ofJson, bind_eq_error_iff]
    constructor
    · rintro ⟨e, he | ⟨_, -, ⟨⟩⟩⟩
      obtain ⟨item, hitem, hunusable⟩ := (Value.exists_ofJsonItems_error_iff items).1 ⟨e, he⟩
      exact .array hitem hunusable
    · rintro (_ | _ | ⟨hitem, hunusable⟩)
      obtain ⟨e, he⟩ := (Value.exists_ofJsonItems_error_iff items).2 ⟨_, hitem, hunusable⟩
      exact ⟨e, .inl he⟩
  | .object _ => ⟨fun _ => .object, fun _ => ⟨_, rfl⟩⟩

theorem Value.exists_ofJsonItems_error_iff : ∀ items : List Json,
    (∃ e, Value.ofJsonItems items = .error e) ↔ ∃ item ∈ items, item.Unusable
  | [] => ⟨nofun, nofun⟩
  | item :: rest => by
    rw [List.exists_mem_cons_iff, ← Value.exists_ofJson_error_iff item,
      ← Value.exists_ofJsonItems_error_iff rest]
    simp only [Value.ofJsonItems, bind_eq_error_iff]
    constructor
    · rintro ⟨e, he | ⟨_, -, he | ⟨_, -, ⟨⟩⟩⟩⟩
      exacts [.inl ⟨e, he⟩, .inr ⟨e, he⟩]
    · rintro (⟨e, he⟩ | ⟨e, he⟩)
      · exact ⟨e, .inl he⟩
      · -- the item may be the first to fail
        cases hitem : Value.ofJson item with
        | error cause => exact ⟨cause, .inl rfl⟩
        | ok value => exact ⟨e, .inr ⟨value, rfl, .inl he⟩⟩

end

/-! ## Members of a JSON object -/

section
variable {members : List (String × Json)} {given : List (String × Value)} {name : String}

theorem Value.exists_ofJsonMembers_error_iff (members : List (String × Json)) :
    (∃ e, Value.ofJsonMembers members = .error e) ↔ ∃ m ∈ members, m.2.Unusable := by
  induction members with
  | nil => exact ⟨nofun, nofun⟩
  | cons entry rest ih =>
    obtain ⟨name, json⟩ := entry
    rw [List.exists_mem_cons_iff, ← ih, ← Value.exists_ofJson_error_iff]
    rw [Value.ofJsonMembers]
    cases Value.ofJson json with
    | error cause => simp
    | ok value =>
      simp only [bind_eq_error_iff]
      constructor
      · rintro ⟨e, he | ⟨_, -, ⟨⟩⟩⟩
        exact .inr ⟨e, he⟩
      · rintro (⟨e, ⟨⟩⟩ | ⟨e, he⟩)
        exact ⟨e, .inl he⟩

theorem Value.ofJsonMembers_cons {json : Json} :
    Value.ofJsonMembers ((name, json) :: members) = .ok given ↔
      ∃ value more, json.StandsFor value ∧ Value.ofJsonMembers members = .ok more ∧
        given = (name, value) :: more := by
  rw [Value.ofJsonMembers]
  simp only [← Value.ofJson_eq_ok_iff]
  cases hjson : Value.ofJson json with
  | error cause =>
    constructor
    · rintro ⟨⟩
    · rintro ⟨_, _, ⟨⟩, -⟩
  | ok value =>
    simp only [bind_eq_ok_iff]
    constructor
    · rintro ⟨more, hmore, ⟨⟩⟩
      exact ⟨value, more, rfl, hmore, rfl⟩
    · rintro ⟨_, more, ⟨⟩, hmore, rfl⟩
      exact ⟨more, hmore, rfl⟩

theorem Value.names_ofJsonMembers (h : Value.ofJsonMembers members = .ok given) :
    given.map Prod.fst = members.map Prod.fst := by
  induction members generalizing given with
  | nil =>
    cases h
    rfl
  | cons entry rest ih =>
    obtain ⟨value, more, -, hmore, rfl⟩ := Value.ofJsonMembers_cons.1 h
    rw [List.map_cons, List.map_cons, ih hmore]

theorem Value.mem_ofJsonMembers {value : Value} (h : Value.ofJsonMembers members = .ok given) :
    (name, value) ∈ given ↔ ∃ json, (name, json) ∈ members ∧ json.StandsFor value := by
  induction members generalizing given with
  | nil =>
    cases h
    simp
  | cons entry rest ih =>
    obtain ⟨key, json⟩ := entry
    obtain ⟨first, more, hfirst, hmore, rfl⟩ := Value.ofJsonMembers_cons.1 h
    have hvalue : json.StandsFor value ↔ value = first := by
      rw [← Value.ofJson_eq_ok_iff] at hfirst ⊢
      rw [hfirst, Except.ok.injEq, eq_comm]
    rw [List.mem_cons, ih hmore]
    simp only [List.mem_cons, Prod.mk.injEq, or_and_right, exists_or, and_assoc, exists_and_left,
      exists_eq_left, hvalue]

/-- The last members of an object, with the values they stand for. -/
theorem Value.mem_contextOfJson {value : Value} (h : Value.contextOfJson members = .ok given) :
    Entries.LastNamed given name value ↔
      ∃ json, Entries.LastNamed members name json ∧ json.StandsFor value := by
  have hsorted : Entries.Sorted given := by
    have hmembers := List.pairwise_map.2 (Entries.sorted_ofList members)
    rw [← Value.names_ofJsonMembers h] at hmembers
    exact List.pairwise_map.1 hmembers
  simp only [Entries.lastNamed_iff_mem hsorted, Value.mem_ofJsonMembers h, Entries.mem_ofList_iff]

theorem Value.exists_contextOfJson_error_iff (members : List (String × Json)) :
    (∃ e, Value.contextOfJson members = .error e) ↔
      ∃ name json, Entries.LastNamed members name json ∧ json.Unusable := by
  rw [Value.contextOfJson, Value.exists_ofJsonMembers_error_iff]
  simp only [Prod.exists, Entries.mem_ofList_iff]

end

/-! ## Assignments -/

/-- An assignment gives a name a value: it is a text that trims to the name, an equals sign and a
    text that spells out the value or is the value.  The equals sign is the first one. -/
def Assigns (assignment name : String) (value : Value) : Prop :=
  ∃ left right, assignment = left ++ "=" ++ right ∧ '=' ∉ left.toList ∧ Text.trim left = name ∧
    value = (Value.literal? right).getD (.text right)

/-- The last of some assignments to a name gives it a value. -/
def LastAssigned (assignments : List String) (name : String) (value : Value) : Prop :=
  ∃ before assignment after, assignments = before ++ assignment :: after ∧
    Assigns assignment name value ∧ ∀ later ∈ after, ∀ other, ¬ Assigns later name other

section
variable {assignment name : String} {value : Value}

/-- A text is cut at its first equals sign. -/
theorem readAssignment?_append {left right : String} (h : '=' ∉ left.toList) :
    readAssignment? (left ++ "=" ++ right) =
      some (Text.trim left, (Value.literal? right).getD (.text right)) := by
  have hleft : ∀ c ∈ left.toList, (c != '=') = true := fun c hc =>
    bne_iff_ne.2 fun heq => h (heq ▸ hc)
  have hlist : (left ++ "=" ++ right).toList = left.toList ++ '=' :: right.toList := by
    simp [String.toList_append]
  have hdrop : (left.toList ++ '=' :: right.toList).dropWhile (· != '=') = '=' :: right.toList := by
    rw [List.dropWhile_append_of_pos hleft, List.dropWhile_cons_of_neg (by decide)]
  have htake : (left.toList ++ '=' :: right.toList).takeWhile (· != '=') = left.toList := by
    rw [List.takeWhile_append_of_pos hleft, List.takeWhile_cons_of_neg (by decide),
      List.append_nil]
  simp only [readAssignment?, hlist, hdrop, htake, String.ofList_toList]

theorem readAssignment?_of_not_mem (h : '=' ∉ assignment.toList) :
    readAssignment? assignment = none := by
  have hdrop : assignment.toList.dropWhile (· != '=') = [] := by
    rw [← List.append_nil assignment.toList, List.dropWhile_append_of_pos]
    · rfl
    · exact fun c hc => bne_iff_ne.2 fun heq => h (heq ▸ hc)
  simp only [readAssignment?, hdrop]

/-- A text with an equals sign, cut at the first one. -/
theorem exists_eq_append (h : '=' ∈ assignment.toList) :
    ∃ left right, assignment = left ++ "=" ++ right ∧ '=' ∉ left.toList := by
  obtain ⟨left, right, heq, hleft⟩ := List.eq_append_cons_of_mem h
  refine ⟨String.ofList left, String.ofList right, ?_, by rwa [String.toList_ofList]⟩
  rw [← String.toList_inj, heq]
  simp [String.toList_append]

theorem exists_readAssignment?_iff :
    (∃ binding, readAssignment? assignment = some binding) ↔ '=' ∈ assignment.toList := by
  constructor
  · rintro ⟨binding, hread⟩
    by_contra hnot
    rw [readAssignment?_of_not_mem hnot] at hread
    cases hread
  · intro h
    obtain ⟨left, right, rfl, hleft⟩ := exists_eq_append h
    exact ⟨_, readAssignment?_append hleft⟩

theorem readAssignment?_eq_some_iff :
    readAssignment? assignment = some (name, value) ↔ Assigns assignment name value := by
  constructor
  · intro h
    obtain ⟨left, right, rfl, hleft⟩ := exists_eq_append (exists_readAssignment?_iff.1 ⟨_, h⟩)
    rw [readAssignment?_append hleft] at h
    cases h
    exact ⟨left, right, rfl, hleft, rfl, rfl⟩
  · rintro ⟨left, right, rfl, hleft, rfl, rfl⟩
    exact readAssignment?_append hleft

/-- What is read of some assignments are the values that they give. -/
theorem mem_read_iff {assignments : List String} {more : List (String × Value)}
    (h : assignments.map readAssignment? = more.map some) :
    (name, value) ∈ more ↔ ∃ assignment ∈ assignments, Assigns assignment name value := by
  have hread : some (name, value) ∈ assignments.map readAssignment? ↔
      some (name, value) ∈ more.map some := by rw [h]
  simpa only [List.mem_map, readAssignment?_eq_some_iff, Option.some.injEq, exists_eq_right]
    using hread.symm

/-- No assignment gives the name a value. -/
theorem forall_not_assigns_iff {assignments : List String} {more : List (String × Value)}
    (h : assignments.map readAssignment? = more.map some) :
    (∀ assignment ∈ assignments, ∀ other, ¬ Assigns assignment name other) ↔
      name ∉ more.map Prod.fst := by
  constructor
  · intro hnone hname
    obtain ⟨⟨name, other⟩, hmem, rfl⟩ := List.mem_map.1 hname
    obtain ⟨assignment, hassignment, hassigns⟩ := (mem_read_iff h).1 hmem
    exact hnone assignment hassignment other hassigns
  · intro hnot assignment hmem other hassigns
    exact hnot (List.mem_map_of_mem ((mem_read_iff h).2 ⟨assignment, hmem, hassigns⟩))

/-- The last assignments, where all of them are read. -/
theorem lastAssigned_iff {assignments : List String} {more : List (String × Value)}
    (h : assignments.map readAssignment? = more.map some) :
    LastAssigned assignments name value ↔ Entries.LastNamed more name value := by
  constructor
  · rintro ⟨before, assignment, after, rfl, hassigns, hafter⟩
    rw [List.map_append, List.map_cons, readAssignment?_eq_some_iff.2 hassigns] at h
    obtain ⟨first, rest, rfl, -, hrest⟩ := List.map_eq_append_iff.1 h.symm
    obtain ⟨entry, later, rfl, hentry, hlater⟩ := List.map_eq_cons_iff.1 hrest
    cases hentry
    exact ⟨first, later, rfl, (forall_not_assigns_iff hlater.symm).1 hafter⟩
  · rintro ⟨before, after, rfl, hafter⟩
    rw [List.map_append, List.map_cons] at h
    obtain ⟨first, rest, rfl, -, hrest⟩ := List.map_eq_append_iff.1 h
    obtain ⟨assignment, later, rfl, hread, hlater⟩ := List.map_eq_cons_iff.1 hrest
    exact ⟨first, assignment, later, rfl, readAssignment?_eq_some_iff.1 hread,
      (forall_not_assigns_iff hlater).2 hafter⟩

end

/-! ## Seeding a session -/

/-- The members of the JSON object in the file of the context; none if no file is named. -/
inductive ContextHolds (read : FileReader) : Option String → List (String × Json) → Prop
  | nothing : ContextHolds read none []
  | file {path text : String} {members : List (String × Json)} : read.text path = .ok text →
      Json.read? Json.maxDepth text = some (.object members) →
      ContextHolds read (some path) members

/-- The file of the context gives no variables: it cannot be read, is no JSON or no object, or the
    last member with some name stands for no value. -/
inductive ContextUnusable (read : FileReader) : Option String → Prop
  | unreadable {path : String} {cause : FileError} : read.text path = .error cause →
      ContextUnusable read (some path)
  | malformed {path text : String} : read.text path = .ok text →
      Json.read? Json.maxDepth text = none → ContextUnusable read (some path)
  | noObject {path text : String} {json : Json} : read.text path = .ok text →
      Json.read? Json.maxDepth text = some json → (∀ members, json ≠ .object members) →
      ContextUnusable read (some path)
  | member {context : Option String} {members : List (String × Json)} {name : String}
      {json : Json} : ContextHolds read context members →
      Entries.LastNamed members name json → json.Unusable → ContextUnusable read context

/-- No session can be started: the context gives no variables, or there is no equals sign in one of
    the assignments. -/
inductive Unseedable (read : FileReader) (context : Option String) (assignments : List String) :
    Prop
  | context : ContextUnusable read context → Unseedable read context assignments
  | assignment {assignment : String} : assignment ∈ assignments → '=' ∉ assignment.toList →
      Unseedable read context assignments

/-- What a name stands for at the start: what the last assignment to it gives it, or else what the
    last member of the context with the name stands for. -/
inductive Seeds (members : List (String × Json)) (assignments : List String) (name : String) :
    Value → Prop
  | assigned {value : Value} : LastAssigned assignments name value →
      Seeds members assignments name value
  | member {json : Json} {value : Value} :
      (∀ assignment ∈ assignments, ∀ other, ¬ Assigns assignment name other) →
      Entries.LastNamed members name json → json.StandsFor value →
      Seeds members assignments name value

section
variable {read : FileReader} {context : Option String} {assignments : List String}

theorem contextGives_iff {given : List (String × Value)} :
    ContextGives read context given ↔
      ∃ members, ContextHolds read context members ∧ Value.contextOfJson members = .ok given := by
  constructor
  · rintro (_ | ⟨htext, hmembers, hgiven⟩)
    · exact ⟨[], .nothing, rfl⟩
    · exact ⟨_, .file htext hmembers, hgiven⟩
  · rintro ⟨members, _ | ⟨htext, hmembers⟩, hgiven⟩
    · cases hgiven
      exact .nothing
    · exact .file htext hmembers hgiven

theorem ContextHolds.unique {members others : List (String × Json)}
    (h : ContextHolds read context members) (h' : ContextHolds read context others) :
    members = others := by
  cases h with
  | nothing => cases h'; rfl
  | file htext hmembers =>
    cases h' with
    | file htext' hmembers' =>
      cases htext.symm.trans htext'
      cases hmembers.symm.trans hmembers'
      rfl

/-- Where the context holds members, nothing but a last member can make it unusable. -/
theorem ContextHolds.exists_unusable {members : List (String × Json)}
    (h : ContextHolds read context members) (hunusable : ContextUnusable read context) :
    ∃ name json, Entries.LastNamed members name json ∧ json.Unusable := by
  cases hunusable with
  | unreadable hunreadable =>
    cases h with
    | file htext => cases hunreadable.symm.trans htext
  | malformed htext hmalformed =>
    cases h with
    | file htext' hjson =>
      cases htext.symm.trans htext'
      cases hmalformed.symm.trans hjson
  | noObject htext hjson hobject =>
    cases h with
    | file htext' hjson' =>
      cases htext.symm.trans htext'
      exact absurd (Option.some.inj (hjson.symm.trans hjson')) (hobject _)
  | member hmembers hlast hmember =>
    obtain rfl := h.unique hmembers
    exact ⟨_, _, hlast, hmember⟩

/-- A context that is not unusable holds members. -/
theorem exists_contextHolds (h : ¬ ContextUnusable read context) :
    ∃ members, ContextHolds read context members := by
  cases context with
  | none => exact ⟨[], .nothing⟩
  | some path =>
    cases htext : read.text path with
    | error cause => exact absurd (.unreadable htext) h
    | ok text =>
      cases hjson : Json.read? Json.maxDepth text with
      | none => exact absurd (.malformed htext hjson) h
      | some json =>
        by_cases hobject : ∃ members, json = .object members
        · obtain ⟨members, rfl⟩ := hobject
          exact ⟨members, .file htext hjson⟩
        · exact absurd (.noObject htext hjson fun members heq => hobject ⟨members, heq⟩) h

/-- The context gives variables, or is unusable. -/
theorem exists_contextGives_iff :
    (∃ given, ContextGives read context given) ↔ ¬ ContextUnusable read context := by
  constructor
  · rintro ⟨given, h⟩ hunusable
    obtain ⟨members, hmembers, hgiven⟩ := contextGives_iff.1 h
    obtain ⟨e, he⟩ := (Value.exists_contextOfJson_error_iff members).2
      (hmembers.exists_unusable hunusable)
    cases hgiven.symm.trans he
  · intro h
    obtain ⟨members, hmembers⟩ := exists_contextHolds h
    cases hgiven : Value.contextOfJson members with
    | ok given => exact ⟨given, contextGives_iff.2 ⟨members, hmembers, hgiven⟩⟩
    | error cause =>
      obtain ⟨name, json, hlast, hmember⟩ :=
        (Value.exists_contextOfJson_error_iff members).1 ⟨cause, hgiven⟩
      exact absurd (.member hmembers hlast hmember) h

theorem exists_assigned_iff :
    (∃ more : List (String × Value), assignments.map readAssignment? = more.map some) ↔
      ∀ assignment ∈ assignments, '=' ∈ assignment.toList := by
  induction assignments with
  | nil => exact ⟨fun _ _ => nofun, fun _ => ⟨[], rfl⟩⟩
  | cons assignment rest ih =>
    rw [List.forall_mem_cons, ← ih, ← exists_readAssignment?_iff]
    constructor
    · rintro ⟨more, hmore⟩
      obtain ⟨binding, later, rfl, hbinding, hlater⟩ := List.map_eq_cons_iff.1 hmore.symm
      exact ⟨⟨binding, hbinding.symm⟩, later, hlater.symm⟩
    · rintro ⟨⟨binding, hbinding⟩, later, hlater⟩
      exact ⟨binding :: later, by rw [List.map_cons, List.map_cons, hbinding, hlater]⟩

/-- A session can be started, or there is a reason why not. -/
theorem exists_seededEngine_error_iff {trimSpaces : Bool} {input : String} :
    (∃ messages, seededEngine read trimSpaces assignments context input = .error messages) ↔
      Unseedable read context assignments := by
  have hstarted : (∃ e, seededEngine read trimSpaces assignments context input = .ok e) ↔
      ¬ ContextUnusable read context ∧ ∀ assignment ∈ assignments, '=' ∈ assignment.toList := by
    rw [← exists_contextGives_iff, ← exists_assigned_iff]
    simp only [seededEngine_eq_ok_iff]
    constructor
    · rintro ⟨e, given, more, hgiven, hmore, -⟩
      exact ⟨⟨given, hgiven⟩, more, hmore⟩
    · rintro ⟨⟨given, hgiven⟩, more, hmore⟩
      exact ⟨_, given, more, hgiven, hmore, rfl⟩
  constructor
  · rintro ⟨messages, herror⟩
    by_contra hnot
    obtain ⟨e, he⟩ := hstarted.2
      ⟨fun hcontext => hnot (.context hcontext), fun assignment hmem =>
        not_not.1 fun hequals => hnot (.assignment hmem hequals)⟩
    cases herror.symm.trans he
  · intro h
    cases hengine : seededEngine read trimSpaces assignments context input with
    | error messages => exact ⟨messages, rfl⟩
    | ok e =>
      obtain ⟨hcontext, hequals⟩ := hstarted.1 ⟨e, hengine⟩
      cases h with
      | context hunusable => exact absurd hunusable hcontext
      | assignment hmem hnone => exact absurd (hequals _ hmem) hnone

/-- What a name stands for where all members and then all assignments are bound. -/
theorem get?_seeded {members : List (String × Json)} {given more : List (String × Value)}
    (hgiven : Value.contextOfJson members = .ok given)
    (hmore : assignments.map readAssignment? = more.map some) (name : String) (value : Value) :
    (Environment.empty.setVariables (given ++ more)).values.get? name = some value ↔
      Seeds members assignments name value := by
  have hlookup : (Environment.empty.setVariables (given ++ more)).values.get? name =
      (more.reverse.lookup name).or (given.reverse.lookup name) := by
    rw [Environment.setVariables, Bindings.get?_setAll, List.reverse_append, List.lookup_append]
    exact Option.or_none
  rw [hlookup, Option.or_eq_some_iff, Entries.lookup_reverse_eq_none_iff,
    ← Entries.lastNamed_iff_lookup, ← Entries.lastNamed_iff_lookup, ← lastAssigned_iff hmore,
    ← forall_not_assigns_iff hmore, Value.mem_contextOfJson hgiven]
  constructor
  · rintro (hassigned | ⟨hnone, json, hlast, hvalue⟩)
    exacts [.assigned hassigned, .member hnone hlast hvalue]
  · rintro (hassigned | ⟨hnone, hlast, hvalue⟩)
    exacts [.inl hassigned, .inr ⟨hnone, _, hlast, hvalue⟩]

/-- The variables are plain. -/
theorem plainEntries_seeded {members : List (String × Json)} {given more : List (String × Value)}
    (hgiven : Value.contextOfJson members = .ok given)
    (hmore : assignments.map readAssignment? = more.map some) :
    PlainEntries (Environment.empty.setVariables (given ++ more)).values := by
  intro entry hentry
  have hadded := (Bindings.mem_setAll hentry).resolve_left List.not_mem_nil
  rcases List.mem_append.1 hadded with hentry | hentry
  · exact plainEntries_ofJsonMembers hgiven entry hentry
  · obtain ⟨assignment, -, hassigns⟩ := (mem_read_iff hmore).1 hentry
    exact plain_readAssignment (readAssignment?_eq_some_iff.2 hassigns)

end

/-! ## Templates -/

/-- What is written where an evaluation has ended, or why nothing is. -/
def emissionOfText (output input : String) (result : Except Failure String) :
    Except Failed Emission := do
  let content ← result.mapError fun failure => ("cannot evaluate " ++ input) :: failure.messages
  return ⟨output, Text.trim content ++ "\n"⟩

/-- What becomes of a template if it is evaluated by `evaluate`. -/
def templateEmission (evaluate : Engine → Block → Except Failure String) (read : FileReader)
    (trimSpaces : Bool) (assignments : List String) (context : Option String)
    (output input : String) : Except Failed Emission := do
  let block ← readDocument read input
  let engine ← seededEngine read trimSpaces assignments context input
  emissionOfText output input (evaluate engine block)

theorem Invocation.emission_template {read : FileReader} {trimSpaces : Bool}
    {assignments : List String} {context : Option String} {output input : String} :
    (Invocation.template trimSpaces assignments context output input).emission read =
      templateEmission (fun e b => (e.evaluate b).1) read trimSpaces assignments context output
        input :=
  rfl

/-- **A session is started with the variables of its arguments, or none at all.**  For an input that
    is a document: no session can be started if and only if the context gives no variables or some
    assignment has no equals sign.  Then nothing is evaluated: what becomes of the template is the
    same however it would be evaluated.  Otherwise it is what becomes of an evaluation that begins
    without templates, and with the variables, all of them plain, that the context and the
    assignments give. -/
theorem templateEmission_seeded {read : FileReader} (trimSpaces : Bool) (assignments : List String)
    (context : Option String) (output : String) {input source : String} {b : Block}
    (hsource : read.text input = .ok source) (hb : Block.ofSource source = .ok b) :
    let session := seededEngine read trimSpaces assignments context input
    let emission := fun evaluate =>
      templateEmission evaluate read trimSpaces assignments context output input
    ((∃ messages, session = .error messages) ↔ Unseedable read context assignments) ∧
      (∀ messages, session = .error messages → ∀ evaluate, emission evaluate = .error messages) ∧
      (∀ e, session = .ok e →
        (∀ evaluate, emission evaluate = emissionOfText output input (evaluate e b)) ∧
        e.environment.templates = [] ∧
        (∃ members, ContextHolds read context members ∧ ∀ name value,
          e.environment.values.get? name = some value ↔ Seeds members assignments name value) ∧
        PlainEntries e.environment.values) ∧
      (Invocation.template trimSpaces assignments context output input).emission read =
        emission fun e b => (e.evaluate b).1 := by
  intro session emission
  have hdocument : readDocument read input = .ok b := readDocument_eq_ok_iff.2 ⟨_, hsource, hb⟩
  have hemission : ∀ evaluate,
      emission evaluate = session.bind fun e => emissionOfText output input (evaluate e b) :=
    fun evaluate => by simp only [emission, templateEmission, hdocument]; rfl
  refine ⟨exists_seededEngine_error_iff, fun messages hsession evaluate => ?_,
    fun e hsession => ⟨fun evaluate => ?_, ?_⟩, Invocation.emission_template⟩
  · rw [hemission, hsession]
    rfl
  · rw [hemission, hsession]
    rfl
  · obtain ⟨given, more, hgives, hmore, rfl⟩ := seededEngine_eq_ok_iff.1 hsession
    obtain ⟨members, hmembers, hgiven⟩ := contextGives_iff.1 hgives
    exact ⟨rfl, ⟨members, hmembers, get?_seeded hgiven hmore⟩, plainEntries_seeded hgiven hmore⟩

/-- An assignment behind another one to the name and in front of a member, a member behind one with
    the same name that stands for no value, and an assignment without an equals sign. -/
theorem templateEmission_seeded_overridden :
    let template := "#x\x7b\x7d"
    let members : List (String × Json) :=
      [("x", .string "u"), ("y", .null), ("y", .array [.boolean true])]
    let json := Json.write .compact (.object members)
    let s : FileSystem :=
      { files := [(["a"], template.toUTF8), (["c"], json.toUTF8)], working := [] }
    (∃ e, seededEngine s.read false ["x=true", " x =b=c"] (some "c") "a" = .ok e ∧
      e.environment.values.get? "x" = some (.text "b=c") ∧
      e.environment.values.get? "y" = some (.list [.boolean true])) ∧
    ∃ messages, ∀ evaluate,
      templateEmission evaluate s.read false ["x"] none "-" "a" = .error messages := by
  intro template members json s
  have hsource : FileReader.text s.read "a" = .ok template := by decide +kernel
  have hb : Block.ofSource template = .ok [.element "x" [[]]] := by decide +kernel
  have htext : FileReader.text s.read "c" = .ok json := by decide +kernel
  have hjson : Json.read? Json.maxDepth json = some (.object members) := by
    have hnumberless : (Json.object members).Numberless :=
      ⟨trivial, trivial, ⟨trivial, trivial⟩, trivial⟩
    rw [Json.read?_write Json.Layout.blank_compact hnumberless, if_pos (by decide)]
  constructor
  · have hgives : ContextGives s.read (some "c")
        [("x", .text "u"), ("y", .list [.boolean true])] := .file htext hjson rfl
    have hfirst : Assigns "x=true" "x" (.boolean true) :=
      ⟨"x", "true", rfl, by decide, by decide +kernel, rfl⟩
    have hx : Assigns " x =b=c" "x" (.text "b=c") :=
      ⟨" x ", "b=c", rfl, by decide, by decide +kernel, rfl⟩
    have hmore : ["x=true", " x =b=c"].map readAssignment? =
        [("x", .boolean true), ("x", .text "b=c")].map some := by
      simp only [List.map_cons, List.map_nil, readAssignment?_eq_some_iff.2 hfirst,
        readAssignment?_eq_some_iff.2 hx]
    obtain ⟨e, hsession⟩ : ∃ e,
        seededEngine s.read false ["x=true", " x =b=c"] (some "c") "a" = .ok e :=
      ⟨_, seededEngine_eq_ok_iff.2 ⟨_, _, hgives, hmore, rfl⟩⟩
    obtain ⟨_, hmembers, hvariables⟩ := ((templateEmission_seeded false
      ["x=true", " x =b=c"] (some "c") "-" hsource hb).2.2.1 e hsession).2.2.1
    obtain rfl := hmembers.unique (.file htext hjson)
    have hy : ∀ assignment ∈ ["x=true", " x =b=c"], ∀ other, ¬ Assigns assignment "y" other :=
      (forall_not_assigns_iff hmore).2 (by decide)
    exact ⟨e, hsession,
      (hvariables "x" _).2 (.assigned ⟨["x=true"], _, [], rfl, hx, nofun⟩),
      (hvariables "y" _).2 (.member hy ⟨[("x", .string "u"), ("y", .null)], [], rfl, nofun⟩
        (.array (.cons .boolean .nil)))⟩
  · obtain ⟨hfails, hnothing, -⟩ := templateEmission_seeded false ["x"] none "-" hsource hb
    obtain ⟨messages, hmessages⟩ := hfails.2 (.assignment (List.mem_singleton_self _) (by decide))
    exact ⟨messages, hnothing messages hmessages⟩

end BraceMarkup
