/-
  The fault of a text is its first one.

  A scanner that has read the text up to an offset has the arguments open that
  the text has open there, each with its length and the position of its
  braces.  So it stops at the first closing braces that are left over, or at
  the end of the text, and there it finds the fault of the text.

  * `runLength_eq_iff`: the length of a run told by its characters;
  * `ReadUpTo`: what holds of a scanner that has read the text up to an offset;
  * `closeArguments_map`: what a closing run leaves open and left over;
  * `Scanner.Step.readUpTo`: the steps of the scanner read the text on;
  * `Scanner.Fault.firstFault`: its fault is that of the text;
  * `tokenize_fault`: a text is cut into tokens unless it has a fault, and that
    fault is the one reported.
-/
import BraceMarkup.Proofs.Token.Braces
import BraceMarkup.Proofs.Token.Fault

namespace BraceMarkup

open Relation

/-! ## Runs that are counted -/

section
variable {cs : List Char} {c : Char} {k n : Nat}

/-- What is taken of a list satisfies the predicate, and what stands behind it does not. -/
theorem getElem?_takeWhile_length (p : Char → Bool) (ds : List Char) :
    (∀ i < (ds.takeWhile p).length, ∃ c, ds[i]? = some c ∧ p c = true) ∧
      ∀ c, ds[(ds.takeWhile p).length]? = some c → p c = false := by
  induction ds with
  | nil => simp
  | cons d ds ih =>
    by_cases hd : p d = true
    · rw [List.takeWhile_cons_of_pos hd, List.length_cons]
      refine ⟨fun i hi => ?_, ih.2⟩
      cases i with
      | zero => exact ⟨d, rfl, hd⟩
      | succ i => exact ih.1 i (Nat.lt_of_succ_lt_succ hi)
    · rw [List.takeWhile_cons_of_neg hd]
      refine ⟨fun i hi => absurd hi (Nat.not_lt_zero i), fun c hc => ?_⟩
      obtain rfl : d = c := by simpa using hc
      simpa using hd

theorem getElem?_runLength_self (c : Char) (ds : List Char) : ds[runLength c ds]? ≠ some c :=
  fun h => by simpa using (getElem?_takeWhile_length (· == c) ds).2 c h

/-- The length of the run at the front of a list, told by its characters. -/
theorem runLength_eq_iff {ds : List Char} :
    runLength c ds = n ↔ (∀ i < n, ds[i]? = some c) ∧ ds[n]? ≠ some c := by
  constructor
  · rintro rfl
    exact ⟨fun i hi => getElem?_runLength c ds hi, getElem?_runLength_self c ds⟩
  · rintro ⟨hin, hbehind⟩
    rcases Nat.lt_trichotomy (runLength c ds) n with hlt | heq | hlt
    · exact absurd (hin _ hlt) (getElem?_runLength_self c ds)
    · exact heq
    · exact absurd (getElem?_runLength c ds hlt) hbehind

theorem RunAt.runLength_eq (h : RunAt cs c k n) : runLength c (cs.drop k) = n := by
  rw [runLength_eq_iff]
  simpa only [List.getElem?_drop] using ⟨h.inside, h.behind⟩

/-- The characters that a scanner counts are a run if the one in front of them is another. -/
theorem RunAt.of_runLength (hn : n = runLength c (cs.drop k)) (h0 : 0 < n)
    (hbefore : ∀ i, i + 1 = k → cs[i]? ≠ some c) : RunAt cs c k n where
  pos := h0
  inside := by simpa only [List.getElem?_drop] using (runLength_eq_iff.1 hn.symm).1
  behind := by simpa only [List.getElem?_drop] using (runLength_eq_iff.1 hn.symm).2
  before := hbefore

/-! ## Names -/

theorem isNameChar_ne {c : Char} (h : isNameChar c = true) : c ≠ ' ' ∧ c ≠ '{' ∧ c ≠ '}' := by
  refine ⟨?_, ?_, ?_⟩ <;>
    · rintro rfl
      exact absurd h (by decide +kernel)

/-- In front of an offset in a name stands its `#`, or the name goes on from there. -/
theorem InName.pred (h : InName cs (k + 1)) :
    cs[k]? = some '#' ∨ InName cs k ∧ ∃ c, cs[k]? = some c ∧ isNameChar c = true := by
  obtain ⟨hash, hlt, hhash, hname⟩ := h
  rcases Nat.lt_or_ge hash k with hin | hout
  · exact .inr ⟨⟨hash, hin, hhash, fun i hi hik => hname i hi (Nat.lt_succ_of_lt hik)⟩,
      hname k hin (Nat.lt_succ_self k)⟩
  · obtain rfl : hash = k := Nat.le_antisymm (Nat.le_of_lt_succ hlt) hout
    exact .inl hhash

theorem InName.char (h : InName cs (k + 1)) :
    ∃ c, cs[k]? = some c ∧ c ≠ ' ' ∧ c ≠ '{' ∧ c ≠ '}' := by
  rcases h.pred with hhash | ⟨-, c, hc, hname⟩
  · exact ⟨'#', hhash, by decide, by decide, by decide⟩
  · exact ⟨c, hc, isNameChar_ne hname⟩

theorem InName.behindName (h : InName cs k) : BehindName cs k :=
  ⟨k, Nat.le_refl k, h, fun _ hi hlt => absurd hlt (Nat.not_lt.2 hi)⟩

/-- In front of an offset behind a name is the name, or a space. -/
theorem BehindName.pred (h : BehindName cs (k + 1)) :
    InName cs (k + 1) ∨ BehindName cs k ∧ cs[k]? = some ' ' := by
  obtain ⟨stop, hle, hname, hspaces⟩ := h
  rcases Nat.lt_or_ge k stop with hk | hk
  · obtain rfl : stop = k + 1 := Nat.le_antisymm hle hk
    exact .inl hname
  · exact .inr ⟨⟨stop, hk, hname, fun i hi hik => hspaces i hi (Nat.lt_succ_of_lt hik)⟩,
      hspaces k hk (Nat.lt_succ_self k)⟩

theorem BehindName.char (h : BehindName cs (k + 1)) :
    cs[k]? ≠ some '{' ∧ cs[k]? ≠ some '}' := by
  rcases h.pred with hname | ⟨-, hspace⟩
  · obtain ⟨c, hc, -, ho, hb⟩ := hname.char
    simp [hc, ho, hb]
  · simp [hspace]

variable (cs) in
/-- A `#` and its name, `name` characters, stand at offset `k`, and `spaces` spaces behind them;
    neither can be made longer. -/
structure NameAt (k name spaces : Nat) : Prop where
  pos : 0 < name
  hash : cs[k]? = some '#'
  inside : ∀ i, 0 < i → i < name → ∃ c, cs[k + i]? = some c ∧ isNameChar c = true
  behind : ∀ c, cs[k + name]? = some c → isNameChar c = false
  padding : ∀ i < spaces, cs[k + (name + i)]? = some ' '
  last : cs[k + (name + spaces)]? ≠ some ' '

theorem NameAt.of_rest {ds : List Char} {name spaces : Nat} (hs : cs.drop k = '#' :: ds)
    (hn : name = nameLength (cs.drop k)) (hsp : spaces = runLength ' ' (cs.drop (k + name))) :
    NameAt cs k name spaces := by
  have hget : ∀ i, cs[k + i]? = ('#' :: ds)[i]? := fun i => by rw [← hs, List.getElem?_drop]
  obtain ⟨hin, hbehind⟩ := getElem?_takeWhile_length isNameChar ds
  obtain ⟨hspaces, hlast⟩ := runLength_eq_iff.1 hsp.symm
  simp only [List.getElem?_drop, Nat.add_assoc] at hspaces hlast
  obtain rfl : name = (ds.takeWhile isNameChar).length + 1 := by
    rw [hn, hs, nameLength, List.tail_cons, Nat.add_comm]
  refine ⟨Nat.succ_pos _, hget 0, fun i h0 hi => ?_, fun c hc => ?_, hspaces, hlast⟩
  · obtain ⟨i, rfl⟩ := Nat.exists_eq_succ_of_ne_zero (Nat.ne_of_gt h0)
    rw [hget]
    exact hin i (Nat.lt_of_succ_lt_succ hi)
  · rw [hget] at hc
    exact hbehind c hc

/-- What stands in a name and the spaces behind it. -/
theorem NameAt.getElem? {name spaces : Nat} (h : NameAt cs k name spaces) {i : Nat}
    (hi : i < name + spaces) : ∃ c, cs[k + i]? = some c ∧ c ≠ '{' ∧ c ≠ '}' := by
  rcases Nat.eq_zero_or_pos i with rfl | h0
  · exact ⟨'#', h.hash, by decide, by decide⟩
  rcases Nat.lt_or_ge i name with hlt | hge
  · obtain ⟨c, hc, hcn⟩ := h.inside i h0 hlt
    exact ⟨c, hc, (isNameChar_ne hcn).2⟩
  · have := h.padding (i - name) (by omega)
    rw [Nat.add_sub_cancel' hge] at this
    exact ⟨' ', this, by decide, by decide⟩

theorem NameAt.behindName {name spaces : Nat} (h : NameAt cs k name spaces) :
    BehindName cs (k + (name + spaces)) := by
  refine ⟨k + name, by omega, ⟨k, Nat.lt_add_of_pos_right h.pos, h.hash, fun i hi hlt => ?_⟩,
    fun i hi hlt => ?_⟩
  · have := h.inside (i - k) (by omega) (by omega)
    rwa [Nat.add_sub_cancel' (Nat.le_of_lt hi)] at this
  · have := h.padding (i - (k + name)) (by omega)
    rwa [← Nat.add_assoc, Nat.add_sub_cancel' hi] at this

/-- Neither the name nor the spaces behind it go on. -/
theorem NameAt.named {name spaces : Nat} (h : NameAt cs k name spaces)
    (hb : BehindName cs (k + (name + spaces) + 1)) : cs[k + (name + spaces)]? = some '#' := by
  rcases hb.pred with hname | ⟨-, hspace⟩
  · rcases hname.pred with hhash | ⟨hname, c, hc, hcn⟩
    · exact hhash
    cases spaces with
    | zero => simp [h.behind c hc] at hcn
    | succ spaces =>
      -- the name would go on behind a space
      have hspace := h.padding spaces (Nat.lt_succ_self spaces)
      obtain ⟨d, hd, hne, -⟩ := hname.char
      exact absurd (Option.some.inj (hd.symm.trans hspace)) hne
  · exact absurd hspace h.last

theorem RunAt.lastChar (h : RunAt cs c k n) {i : Nat} (hi : i + 1 = k + n) : cs[i]? = some c := by
  have hpos := h.pos
  have := h.inside (n - 1) (by omega)
  rwa [show k + (n - 1) = i by omega] at this

/-- Behind a run of braces is not behind a name. -/
theorem RunAt.not_behindName (h : RunAt cs c k n) (hc : c = '{' ∨ c = '}') :
    ¬ BehindName cs (k + n) := by
  intro hb
  obtain ⟨m, hm⟩ := Nat.exists_eq_succ_of_ne_zero (Nat.ne_of_gt (Nat.add_pos_right k h.pos))
  have hlast := h.lastChar hm.symm
  rw [hm] at hb
  rcases hc with rfl | rfl
  exacts [hb.char.1 hlast, hb.char.2 hlast]

end

/-! ## Reading a text -/

section
variable {cs : List Char} {s : Scanner} {k n : Nat} {opened : List (ArgumentAt cs)}

/-- What a scanner keeps of an open argument. -/
def ArgumentAt.kept (a : ArgumentAt cs) : OpenArgument :=
  ⟨a.depth, lineAndColumn (cs.take a.offset)⟩

variable (cs) in
/-- The scanner has read the text up to the offset `k`, and the arguments are open that the text has
    open there.  It has not stopped within a name, the spaces behind it or a closing run, nor in
    front of a run that opens an argument. -/
structure ReadUpTo (k : Nat) (opened : List (ArgumentAt cs)) (s : Scanner) : Prop where
  stands : Stands cs k s
  arguments : s.opened = opened.map ArgumentAt.kept
  reached : OpenAt cs k opened
  tooShort : ∀ n, RunAt cs '{' k n → BehindName cs k → n < asked opened
  named : BehindName cs (k + 1) → cs[k]? = some '#'
  fresh : cs[k]? = some '}' → ∀ i, i + 1 = k → cs[i]? ≠ some '}'

theorem depth_eq_asked (h : s.opened = opened.map ArgumentAt.kept) : s.depth = asked opened := by
  cases opened <;> simp only [Scanner.depth, h] <;> rfl

theorem Stands.keep (h : Stands cs k s) (hn : n ≤ s.rest.length) : Stands cs (k + n) (s.keep n) :=
  ⟨(h.skip hn).rest, (h.skip hn).position, (h.skip hn).le⟩

theorem Stands.outside (h : Stands cs k s) (hn : n ≤ s.rest.length)
    (arguments : List OpenArgument) : Stands cs (k + n) (s.outside n arguments) :=
  ⟨(h.skip hn).rest, (h.skip hn).position, (h.skip hn).le⟩

theorem Stands.getElem? (h : Stands cs k s) {c : Char} {ds : List Char} (hs : s.rest = c :: ds) :
    cs[k]? = some c := by
  rw [← Nat.add_zero k, ← List.getElem?_drop, ← h.rest, hs]
  rfl

/-- The scanner stands at an offset that is behind no name. -/
theorem Stands.readUpTo (h : Stands cs k s) (ho : s.opened = opened.map ArgumentAt.kept)
    (hr : OpenAt cs k opened) (hn : ¬ BehindName cs k)
    (hfresh : cs[k]? = some '}' → ∀ i, i + 1 = k → cs[i]? ≠ some '}') : ReadUpTo cs k opened s where
  stands := h
  arguments := ho
  reached := hr
  tooShort _ _ hb := absurd hb hn
  named hb := by
    rcases hb.pred with hname | ⟨hb, -⟩
    · exact hname.pred.resolve_right fun h => hn h.1.behindName
    · exact absurd hb hn
  fresh := hfresh

/-- Any character but a brace is text. -/
theorem BraceStep.of_char {c : Char} (hc : cs[k]? = some c) (ho : c ≠ '{') (hb : c ≠ '}') :
    BraceStep cs (k, opened) (k + 1, opened) := by
  have hrun : ∀ {d m}, RunAt cs d k m → c = d := fun run =>
    Option.some.inj (hc.symm.trans run.first)
  exact .text (List.getElem?_eq_some_iff.1 hc).1 (fun _ run => absurd (hrun run) ho)
    fun _ run => absurd (hrun run) hb

/-- Character after character is text. -/
theorem OpenAt.text (h : OpenAt cs k opened)
    (hs : ∀ i < n, BraceStep cs (k + i, opened) (k + i + 1, opened)) :
    OpenAt cs (k + n) opened := by
  induction n with
  | zero => exact h
  | succ n ih =>
    exact ReflTransGen.tail (ih fun i hi => hs i (Nat.lt_succ_of_lt hi)) (hs n (Nat.lt_succ_self n))

theorem NameAt.openAt {name spaces : Nat} (h : NameAt cs k name spaces) (hr : OpenAt cs k opened) :
    OpenAt cs (k + (name + spaces)) opened :=
  hr.text fun _ hi => by
    obtain ⟨c, hc, ho, hb⟩ := h.getElem? hi
    exact .of_char hc ho hb

theorem NameAt.before {name spaces : Nat} (h : NameAt cs k name spaces) {i : Nat}
    (hi : i + 1 = k + (name + spaces)) : cs[i]? ≠ some '{' ∧ cs[i]? ≠ some '}' := by
  have hpos := h.pos
  obtain ⟨c, hc, ho, hb⟩ := h.getElem? (i := name + spaces - 1) (by omega)
  rw [show k + (name + spaces - 1) = i by omega] at hc
  simp [hc, ho, hb]

/-! ## Steps -/

theorem ReadUpTo.char {c : Char} {ds : List Char} (h : ReadUpTo cs k opened s)
    (hs : s.rest = c :: ds) (hh : c ≠ '#') (hb : c ≠ '}') :
    ReadUpTo cs (k + 1) opened (s.keep 1) := by
  have hc := h.stands.getElem? hs
  refine (h.stands.keep (by simp [hs])).readUpTo h.arguments ?_ (fun hn => ?_) fun _ i hi => ?_
  · refine h.reached.tail (.text (List.getElem?_eq_some_iff.1 hc).1 h.tooShort fun n run => ?_)
    exact absurd (Option.some.inj (hc.symm.trans run.first)) hb
  · exact hh (Option.some.inj (hc.symm.trans (h.named hn)))
  · obtain rfl := Nat.succ.inj hi
    simpa [hc] using hb

/-- The name and the spaces at the front of the rest. -/
theorem ReadUpTo.nameAt {ds : List Char} {name spaces : Nat} (h : ReadUpTo cs k opened s)
    (hs : s.rest = '#' :: ds) (hn : name = nameLength s.rest)
    (hsp : spaces = runLength ' ' (s.rest.drop name)) : NameAt cs k name spaces := by
  have hrest := h.stands.rest
  refine .of_rest (hrest ▸ hs) (hrest ▸ hn) ?_
  rw [hsp, hrest, List.drop_drop]

theorem Scanner.length_name_le {ds : List Char} {name spaces : Nat} (hs : s.rest = '#' :: ds)
    (hn : name = nameLength s.rest) (hsp : spaces = runLength ' ' (s.rest.drop name)) :
    name + spaces ≤ s.rest.length := by
  have hname := nameLength_le hs
  have hspaces := runLength_le ' ' (s.rest.drop name)
  rw [← hsp, List.length_drop] at hspaces
  omega

theorem ReadUpTo.hash {ds : List Char} {name spaces braces : Nat} (h : ReadUpTo cs k opened s)
    (hs : s.rest = '#' :: ds) (hn : name = nameLength s.rest)
    (hsp : spaces = runLength ' ' (s.rest.drop name))
    (hb : braces = runLength '{' (s.rest.drop (name + spaces)))
    (hlt : braces = 0 ∨ braces < s.depth) :
    ReadUpTo cs (k + (name + spaces)) opened (s.keep (name + spaces)) := by
  have hname := h.nameAt hs hn hsp
  refine ⟨h.stands.keep (Scanner.length_name_le hs hn hsp), h.arguments, hname.openAt h.reached,
    fun n run _ => ?_, hname.named, fun _ i hi => (hname.before hi).2⟩
  have hlen := run.runLength_eq
  rw [← List.drop_drop, ← h.stands.rest, ← hb] at hlen
  have hpos := run.pos
  have hdepth := depth_eq_asked h.arguments
  omega

/-- The scanner goes on inside of an argument that it has opened, behind its braces or the space
    behind them. -/
theorem Stands.readUpTo_openArgument {braces : Nat} (h : Stands cs k s)
    (ho : s.opened = opened.map ArgumentAt.kept) (run : RunAt cs '{' k braces)
    (hr : OpenAt cs (k + braces) (⟨k, braces, run⟩ :: opened)) :
    ∃ m, ReadUpTo cs m (⟨k, braces, run⟩ :: opened) (s.openArgument braces).2 := by
  have hle : braces ≤ s.rest.length := by
    rw [h.rest, ← run.runLength_eq]
    exact runLength_le _ _
  have hname : ¬ BehindName cs (k + braces) := run.not_behindName (.inl rfl)
  have hinside := h.outside hle (⟨braces, s.position⟩ :: s.opened)
  have hkept : ⟨braces, s.position⟩ :: s.opened =
      (⟨k, braces, run⟩ :: opened).map ArgumentAt.kept := by
    rw [List.map_cons, ho, h.position]
    rfl
  rw [Scanner.openArgument_snd]
  dsimp only
  split
  · next hspace =>
    have hspace' : cs[k + braces]? = some ' ' := by
      rwa [hinside.rest, List.head?_drop] at hspace
    refine ⟨k + braces + 1, (hinside.skip ?_).readUpTo hkept ?_ (fun hb => ?_) fun _ i hi => ?_⟩
    · exact List.length_pos_iff.2 fun hnil => by simp [hnil] at hspace
    · exact hr.tail (.of_char hspace' (by decide) (by decide))
    · rcases hb.pred with hin | ⟨hb, -⟩
      · obtain ⟨c, hc, hne, -⟩ := hin.char
        exact hne (Option.some.inj (hc.symm.trans hspace'))
      · exact hname hb
    · obtain rfl := Nat.succ.inj hi
      simp [hspace']
  · refine ⟨k + braces, hinside.readUpTo hkept hr hname fun _ i hi => ?_⟩
    simp [run.lastChar hi]

theorem ReadUpTo.element {ds : List Char} {name spaces braces : Nat} (h : ReadUpTo cs k opened s)
    (hs : s.rest = '#' :: ds) (hn : name = nameLength s.rest)
    (hsp : spaces = runLength ' ' (s.rest.drop name))
    (hb : braces = runLength '{' (s.rest.drop (name + spaces))) (h0 : 0 < braces)
    (hle : s.depth ≤ braces) :
    ∃ m opened', ReadUpTo cs m opened' ((s.skip (name + spaces)).openArgument braces).2 := by
  have hname := h.nameAt hs hn hsp
  have hstands := h.stands.skip (Scanner.length_name_le hs hn hsp)
  have run : RunAt cs '{' (k + (name + spaces)) braces := by
    refine .of_runLength ?_ h0 fun i hi => (hname.before hi).1
    rw [hb, h.stands.rest, List.drop_drop]
  rw [depth_eq_asked h.arguments] at hle
  obtain ⟨m, hm⟩ := hstands.readUpTo_openArgument h.arguments run
    ((hname.openAt h.reached).tail (.opens run hname.behindName hle))
  exact ⟨m, _, hm⟩

/-- A closing run at the front of the rest. -/
theorem ReadUpTo.runAt {ds : List Char} {count : Nat} (h : ReadUpTo cs k opened s)
    (hs : s.rest = '}' :: ds) (hc : count = runLength '}' s.rest) : RunAt cs '}' k count :=
  .of_runLength (h.stands.rest ▸ hc) (hc ▸ runLength_pos hs) (h.fresh (h.stands.getElem? hs))

theorem ReadUpTo.short {ds : List Char} {count : Nat} (h : ReadUpTo cs k opened s)
    (hs : s.rest = '}' :: ds) (hc : count = runLength '}' s.rest) (ho : s.opened ≠ [])
    (hlt : count < s.depth) : ReadUpTo cs (k + count) opened (s.keep count) := by
  have run := h.runAt hs hc
  rw [depth_eq_asked h.arguments] at hlt
  have hne : opened ≠ [] := by
    rintro rfl
    exact ho h.arguments
  have htext : ∀ i < count, BraceStep cs (k + i, opened) (k + i + 1, opened) := fun i hi => by
    have hbrace := run.inside i hi
    refine .text (List.getElem?_eq_some_iff.1 hbrace).1 (fun n run' => ?_) fun n run' => ⟨hne, ?_⟩
    · exact absurd (Option.some.inj (hbrace.symm.trans run'.first)) (by decide)
    · -- a run begins at the first of the braces only
      cases i with
      | zero =>
        obtain rfl := run.unique run'
        exact hlt
      | succ i => exact absurd (run.inside i (Nat.lt_of_succ_lt hi)) (run'.before (k + i) rfl)
  have hle : count ≤ s.rest.length := hc ▸ runLength_le _ _
  exact (h.stands.keep hle).readUpTo h.arguments (h.reached.text htext)
    (run.not_behindName (.inr rfl)) fun hbrace => absurd hbrace run.behind

/-- What a closing run closes, what it leaves open, and the braces that are left over. -/
theorem closeArguments_kept {p : Position} {count left : Nat} {all : List (ArgumentAt cs)}
    {tokens : List Token} {arguments : List OpenArgument}
    (h : closeArguments p count (all.map ArgumentAt.kept) = (tokens, left, arguments)) :
    ∃ closed opened, all = closed ++ opened ∧ arguments = opened.map ArgumentAt.kept ∧
      count = braceCount closed + left ∧ ∀ a ∈ opened.head?, left < a.depth := by
  induction all generalizing p count tokens with
  | nil =>
    simp only [List.map_nil, closeArguments, Prod.mk.injEq] at h
    obtain ⟨-, rfl, rfl⟩ := h
    exact ⟨[], [], rfl, rfl, by simp, by simp⟩
  | cons a outer ih =>
    simp only [List.map_cons, closeArguments] at h
    split at h
    · next hle =>
      simp only [Prod.mk.injEq] at h
      obtain ⟨-, hleft, harguments⟩ := h
      obtain ⟨closed, opened, rfl, hmap, hcount, hshort⟩ :=
        ih (Prod.ext rfl (Prod.ext hleft harguments))
      refine ⟨a :: closed, opened, rfl, hmap, ?_, hshort⟩
      change a.depth ≤ count at hle
      change count - a.depth = _ at hcount
      rw [braceCount_cons]
      omega
    · next hlt =>
      simp only [Prod.mk.injEq] at h
      obtain ⟨-, rfl, rfl⟩ := h
      refine ⟨[], a :: outer, rfl, rfl, by simp, ?_⟩
      rintro _ ⟨⟩
      exact Nat.lt_of_not_le hlt

/-- A closing run closes the innermost of the open arguments. -/
theorem ReadUpTo.closes {ds : List Char} {count left : Nat} {tokens : List Token}
    {arguments : List OpenArgument} (h : ReadUpTo cs k opened s) (hs : s.rest = '}' :: ds)
    (hc : count = runLength '}' s.rest)
    (hclosed : closeArguments s.position count s.opened = (tokens, left, arguments)) :
    ∃ closed outer, opened = closed ++ outer ∧ arguments = outer.map ArgumentAt.kept ∧
      RunAt cs '}' k count ∧ count = braceCount closed + left ∧
      ∀ a ∈ outer.head?, left < a.depth := by
  rw [h.arguments] at hclosed
  obtain ⟨closed, outer, hall, harguments, hcount, hshort⟩ := closeArguments_kept hclosed
  exact ⟨closed, outer, hall, harguments, h.runAt hs hc, hcount, hshort⟩

theorem ReadUpTo.close {ds : List Char} {count : Nat} {tokens : List Token}
    {arguments : List OpenArgument} (h : ReadUpTo cs k opened s) (hs : s.rest = '}' :: ds)
    (hc : count = runLength '}' s.rest)
    (hclosed : closeArguments s.position count s.opened = (tokens, 0, arguments))
    (hb : runLength '{' (s.outside count arguments).rest = 0 ∨
      runLength '{' (s.outside count arguments).rest < (s.outside count arguments).depth) :
    ∃ m outer, ReadUpTo cs m outer (s.outside count arguments) := by
  obtain ⟨closed, outer, rfl, rfl, run, hcount, -⟩ := h.closes hs hc hclosed
  obtain rfl : count = braceCount closed := hcount
  have hle : braceCount closed ≤ s.rest.length := hc ▸ runLength_le _ _
  have hstands := h.stands.outside hle (outer.map ArgumentAt.kept)
  rw [depth_eq_asked rfl, hstands.rest] at hb
  refine ⟨_, outer, hstands.readUpTo rfl (h.reached.tail (.closes run fun n run' => ?_))
    (run.not_behindName (.inr rfl)) fun hbrace => absurd hbrace run.behind⟩
  have hpos := run'.pos
  rw [run'.runLength_eq] at hb
  omega

theorem ReadUpTo.chain {ds : List Char} {count braces : Nat} {tokens : List Token}
    {arguments : List OpenArgument} (h : ReadUpTo cs k opened s) (hs : s.rest = '}' :: ds)
    (hc : count = runLength '}' s.rest)
    (hclosed : closeArguments s.position count s.opened = (tokens, 0, arguments))
    (hb : braces = runLength '{' (s.outside count arguments).rest) (h0 : 0 < braces)
    (hle : (s.outside count arguments).depth ≤ braces) :
    ∃ m opened', ReadUpTo cs m opened' ((s.outside count arguments).openArgument braces).2 := by
  obtain ⟨closed, outer, rfl, rfl, run, hcount, -⟩ := h.closes hs hc hclosed
  obtain rfl : count = braceCount closed := hcount
  have hlen : braceCount closed ≤ s.rest.length := hc ▸ runLength_le _ _
  have hstands := h.stands.outside hlen (outer.map ArgumentAt.kept)
  rw [depth_eq_asked rfl] at hle
  have run' : RunAt cs '{' (k + braceCount closed) braces := by
    refine .of_runLength (hstands.rest ▸ hb) h0 fun i hi => ?_
    simp [run.lastChar hi]
  obtain ⟨m, hm⟩ := hstands.readUpTo_openArgument rfl run'
    (h.reached.tail (.chains run run' hle))
  exact ⟨m, _, hm⟩

/-- **Every step reads the text on.** -/
theorem Scanner.Step.readUpTo {next : Scanner} {tokens : List Token} (hs : s.Step tokens next)
    (h : ReadUpTo cs k opened s) : ∃ m opened', ReadUpTo cs m opened' next := by
  cases hs with
  | char hs hh hb => exact ⟨_, _, h.char hs hh hb⟩
  | hash hs hn hsp hb hlt => exact ⟨_, _, h.hash hs hn hsp hb hlt⟩
  | element hs hn hsp hb h0 hle => exact h.element hs hn hsp hb h0 hle
  | short hs hc ho hlt => exact ⟨_, _, h.short hs hc ho hlt⟩
  | close hs hc _ _ hclosed hb => exact h.close hs hc hclosed hb
  | chain hs hc _ _ hclosed hb h0 hle => exact h.chain hs hc hclosed hb h0 hle

/-! ## Faults -/

/-- The position of the first brace that is left over. -/
theorem Stands.position_leftOver {count left : Nat} (h : Stands cs k s)
    (hc : count + left = runLength '}' s.rest) :
    s.position.advanceList (List.replicate count '}') = lineAndColumn (cs.take (k + count)) := by
  have htake : s.rest.take count = List.replicate count '}' := by
    have := congrArg (List.take count) (take_runLength '}' s.rest)
    rwa [← hc, List.take_take, Nat.min_eq_left (Nat.le_add_right _ _), List.take_replicate,
      Nat.min_eq_left (Nat.le_add_right _ _)] at this
  rw [← htake, h.position_add]

/-- **The fault that a scanner finds is that of the text.** -/
theorem Scanner.Fault.firstFault {e : LexError} (hf : s.Fault e) (h : ReadUpTo cs k opened s) :
    FirstFault cs e := by
  cases hf with
  | unterminated hs ho =>
    obtain rfl : k = cs.length := by simpa [hs] using h.stands.length_rest
    cases opened with
    | nil => exact absurd (ho.symm.trans h.arguments) (List.cons_ne_nil _ _)
    | cons a outer =>
      obtain ⟨rfl, -⟩ := List.cons.inj (ho.symm.trans h.arguments)
      exact .unterminated h.reached h.reached.not_excess
  | @stray ds count hs hc ho =>
    obtain rfl : opened = [] := List.map_eq_nil_iff.1 (h.arguments.symm.trans ho)
    have run := h.runAt hs hc
    have hexcess : Excess cs k [] [] count :=
      ⟨h.reached, (Nat.zero_add count).symm ▸ run, run.pos, by simp, fun _ => rfl⟩
    rw [h.stands.position]
    exact .excess hexcess h.reached.not_excess_before
  | @excess ds count closed left arguments hs hc ho hle hclosed hleft =>
    obtain ⟨closed', outer, rfl, -, run, rfl, hshort⟩ := h.closes hs hc hclosed
    rw [depth_eq_asked h.arguments] at hle
    have hexcess : Excess cs k closed' outer left := by
      refine ⟨h.reached, run, hleft, hshort, ?_⟩
      rintro rfl
      cases outer with
      | nil => rfl
      | cons a rest =>
        -- the run would be too short for the innermost argument
        have hlt := hshort a rfl
        simp only [List.nil_append, asked, braceCount_nil] at hle
        omega
    rw [Nat.add_sub_cancel, h.stands.position_leftOver hc]
    exact .excess hexcess h.reached.not_excess_before

/-! ## Whole texts -/

/-- **A scanner runs to the fault of the text, or to its end with all arguments closed.** -/
theorem Scanner.run_of_readUpTo (s : Scanner) : ∀ {k : Nat} {opened : List (ArgumentAt cs)},
    ReadUpTo cs k opened s → (∃ e, s.run = .error e ∧ FirstFault cs e) ∨
      ∃ tokens, s.run = .ok tokens ∧ OpenAt cs cs.length [] := by
  induction s using Scanner.induction with
  | finish s hs ho =>
    intro k opened h
    obtain rfl : k = cs.length := by simpa [hs] using h.stands.length_rest
    obtain rfl : opened = [] := List.map_eq_nil_iff.1 (h.arguments.symm.trans ho)
    exact .inr ⟨_, Scanner.run_of_end hs ho, h.reached⟩
  | fault s e hf =>
    intro k opened h
    exact .inl ⟨e, Scanner.run_of_fault hf, hf.firstFault h⟩
  | step s next tokens hs ih =>
    intro k opened h
    obtain ⟨m, opened', hnext⟩ := hs.readUpTo h
    rw [Scanner.run_of_step hs]
    rcases ih hnext with ⟨e, hrun, he⟩ | ⟨later, hrun, hopen⟩
    · exact .inl ⟨e, by rw [hrun]; rfl, he⟩
    · exact .inr ⟨tokens ++ later, by rw [hrun]; rfl, hopen⟩

theorem readUpTo_ofList (cs : List Char) : ReadUpTo cs 0 [] (Scanner.ofList cs) := by
  refine Stands.readUpTo ⟨rfl, rfl, Nat.zero_le _⟩ rfl .refl ?_ fun _ i hi => absurd hi (by simp)
  rintro ⟨stop, hle, ⟨hash, hlt, -⟩, -⟩
  omega

end

/-- **A text is cut into tokens unless it has a fault, and the fault reported is the first one, at
    its place.** -/
theorem tokenize_fault (source : String) :
    (∀ e, tokenize source = .error e ↔ FirstFault (sourceChars source) e) ∧
      ((∃ tokens, tokenize source = .ok tokens) ↔ ∀ e, ¬ FirstFault (sourceChars source) e) := by
  rcases Scanner.run_of_readUpTo _ (readUpTo_ofList (sourceChars source)) with
    ⟨e, hrun, he⟩ | ⟨tokens, hrun, hopen⟩ <;> change tokenize source = _ at hrun
  · refine ⟨fun e' => ⟨fun h => ?_, fun h => ?_⟩, fun ⟨tokens, h⟩ => ?_, fun h => absurd he (h e)⟩
    · cases hrun.symm.trans h
      exact he
    · rw [hrun, he.unique h]
    · cases hrun.symm.trans h
  · refine ⟨fun e => ⟨fun h => ?_, fun h => absurd h (hopen.not_firstFault e)⟩,
      fun _ => hopen.not_firstFault, fun _ => ⟨tokens, hrun⟩⟩
    cases hrun.symm.trans h

/-- One run closes two arguments of different lengths and has a brace left; a run that is too short
    leaves an argument open. -/
theorem tokenize_fault_nested :
    FirstFault "#a\x7b\x7b#b\x7b\x7b\x7bx\x7d\x7d\x7d\x7d\x7d\x7d".toList
        ⟨.tooManyClosingBraces 1, ⟨1, 16⟩⟩ ∧
      FirstFault "a\n#b\x7b\x7bc\x7d".toList ⟨.unterminatedArgument 2, ⟨2, 3⟩⟩ :=
  ⟨((tokenize_fault "#a\x7b\x7b#b\x7b\x7b\x7bx\x7d\x7d\x7d\x7d\x7d\x7d").1 _).1 (by decide +kernel),
    ((tokenize_fault "a\n#b\x7b\x7bc\x7d").1 _).1 (by decide +kernel)⟩

end BraceMarkup
