import Palworld.Lib.Text
import Mathlib.Data.List.TakeWhile

/-!
# The `%` formatting of Python

The format string is read as characters and directives. A directive takes its value from the
tuple of the arguments, or it names a key of the mapping that stands in for them.
-/

namespace Lib

/-- A width or a precision. A star takes it from the arguments. -/
inductive Size
  | fixed (n : Nat)
  | star

structure Directive where
  key : Option Text
  flags : Text
  width : Option Size
  precision : Option Size
  conversion : Char

/-- A character, or a directive and what stands for it behind the percent sign. -/
inductive Piece
  | char (c : Char)
  | directive (source : Text) (d : Directive)

/-! ## The format string -/

/-- The key up to its closing parenthesis, and what follows. Parentheses in it are balanced. -/
def readKey : Nat → Text → Option (Text × Text)
  | _, [] => none
  | depth, c :: s =>
    if c = ')' then
      match depth with
      | 0 => some ([], s)
      | depth + 1 => (readKey depth s).map fun found => (c :: found.1, found.2)
    else if c = '(' then (readKey (depth + 1) s).map fun found => (c :: found.1, found.2)
    else (readKey depth s).map fun found => (c :: found.1, found.2)

def isFlag (c : Char) : Bool := ['-', '+', ' ', '#', '0'].contains c

def sizeValue (s : Text) : Nat := Nat.ofDigitChars 10 (s.takeWhile Char.isDigit) 0

/-- A star or digits. The number must not be over the limit. -/
def readSize (limit : Nat) (s : Text) : Option (Option Size × Text) :=
  match s with
  | [] => some (none, [])
  | c :: rest =>
    if c = '*' then some (some .star, rest)
    else if c.isDigit then
      if sizeValue s ≤ limit then some (some (.fixed (sizeValue s)), s.dropWhile Char.isDigit) else none
    else some (none, s)

def widthLimit : Nat := 9223372036854775807

def precisionLimit : Nat := 2147483647

/-- Behind a dot the precision is 0 where none is written. -/
def readPrecision (s : Text) : Option (Option Size × Text) :=
  match s with
  | [] => some (none, [])
  | c :: rest =>
    if c = '.' then (readSize precisionLimit rest).map fun found => (some (found.1.getD (.fixed 0)), found.2)
    else some (none, s)

def readOptionalKey (s : Text) : Option (Option Text × Text) :=
  match s with
  | [] => some (none, [])
  | c :: rest => if c = '(' then (readKey 0 rest).map fun found => (some found.1, found.2) else some (none, s)

def skipLength (s : Text) : Text :=
  match s with
  | [] => []
  | c :: rest => if c = 'h' ∨ c = 'l' ∨ c = 'L' then rest else s

/-- The directive behind a percent sign, and what follows. -/
def readDirective (s : Text) : Option (Directive × Text) :=
  (readOptionalKey s).bind fun (key, s) =>
    (readSize widthLimit (s.dropWhile isFlag)).bind fun (width, rest) =>
      (readPrecision rest).bind fun (precision, rest) =>
        match skipLength rest with
        | [] => none
        | c :: rest => some (⟨key, s.takeWhile isFlag, width, precision, c⟩, rest)

/-! ## What a reader takes -/

/-- The reader takes what stands before the rest, and looks no further than at the first character of the rest. -/
def Consumes {α : Type} (read : Text → Option (α × Text)) (s : Text) (a : α) (rest : Text) : Prop :=
  ∃ source, s = source ++ rest ∧ ∀ t, t.head? = rest.head? → read (source ++ t) = some (a, t)

section

variable {s rest key : Text} {limit depth : Nat} {size : Option Size} {d : Directive}

theorem consumes_nil {α : Type} {read : Text → Option (α × Text)} {a : α} (h : read [] = some (a, [])) : Consumes read [] a [] := by
  refine ⟨[], rfl, fun t ht => ?_⟩
  rw [List.head?_eq_none_iff.mp ht]
  exact h

/-- Nothing is taken before this character. -/
theorem consumes_nothing {α : Type} {read : Text → Option (α × Text)} {a : α} {c : Char} (h : ∀ t, read (c :: t) = some (a, c :: t)) :
    Consumes read (c :: s) a (c :: s) := by
  refine ⟨[], rfl, fun t ht => ?_⟩
  cases t with
  | nil => cases ht
  | cons c' t =>
    cases ht
    exact h t

theorem readKey_source (h : readKey depth s = some (key, rest)) :
    ∃ source, s = source ++ rest ∧ ∀ t, readKey depth (source ++ t) = some (key, t) := by
  induction s generalizing depth key with
  | nil => cases h
  | cons c s ih =>
    unfold readKey at h
    split at h
    · rename_i hc
      split at h
      · cases h
        exact ⟨[c], rfl, fun t => by simp [readKey, hc]⟩
      · obtain ⟨found, hfound, h⟩ := Option.map_eq_some_iff.mp h
        cases h
        obtain ⟨source, rfl, hsource⟩ := ih hfound
        exact ⟨c :: source, rfl, fun t => by simp [readKey, hc, hsource]⟩
    · rename_i hc
      split at h
      · rename_i hopen
        obtain ⟨found, hfound, h⟩ := Option.map_eq_some_iff.mp h
        cases h
        obtain ⟨source, rfl, hsource⟩ := ih hfound
        exact ⟨c :: source, rfl, fun t => by simp [readKey, hopen, hsource]⟩
      · rename_i hopen
        obtain ⟨found, hfound, h⟩ := Option.map_eq_some_iff.mp h
        cases h
        obtain ⟨source, rfl, hsource⟩ := ih hfound
        exact ⟨c :: source, rfl, fun t => by simp [readKey, hc, hopen, hsource]⟩

theorem takeWhile_head {p : Char → Bool} {t : Text} (ht : t.head? = (s.dropWhile p).head?) :
    (s.takeWhile p ++ t).takeWhile p = s.takeWhile p ∧ (s.takeWhile p ++ t).dropWhile p = t := by
  have hhead : t.takeWhile p = [] := by
    cases t with
    | nil => rfl
    | cons c t =>
      have hnot := List.head?_dropWhile_not p s
      rw [← ht, List.head?_cons] at hnot
      exact List.takeWhile_cons_of_neg (by simpa using hnot)
  have hall : ∀ c ∈ s.takeWhile p, p c = true := fun c hc => List.mem_takeWhile_imp hc
  have hkeep : t.dropWhile p = t := by
    have hsplit := List.takeWhile_append_dropWhile (p := p) (l := t)
    rwa [hhead, List.nil_append] at hsplit
  rw [List.takeWhile_append_of_pos hall, List.dropWhile_append_of_pos hall, hhead, hkeep, List.append_nil]
  exact ⟨rfl, rfl⟩

theorem readSize_consumes (h : readSize limit s = some (size, rest)) : Consumes (readSize limit) s size rest := by
  cases s with
  | nil =>
    cases h
    exact consumes_nil rfl
  | cons c s =>
    unfold readSize at h
    dsimp only at h
    split at h
    · rename_i hstar
      cases h
      exact ⟨[c], rfl, fun t _ => by rw [List.singleton_append, readSize, if_pos hstar]⟩
    · rename_i hstar
      split at h
      · rename_i hdigit
        split at h
        · rename_i hlimit
          cases h
          refine ⟨(c :: s).takeWhile Char.isDigit, List.takeWhile_append_dropWhile.symm, fun t ht => ?_⟩
          have hread := takeWhile_head ht
          rw [List.takeWhile_cons_of_pos hdigit, List.cons_append] at hread ⊢
          unfold readSize
          dsimp only
          have hvalue : sizeValue (c :: (s.takeWhile Char.isDigit ++ t)) = sizeValue (c :: s) := by
            unfold sizeValue
            rw [hread.1, List.takeWhile_cons_of_pos hdigit]
          rw [if_neg hstar, if_pos hdigit, hvalue, if_pos hlimit, hread.2]
        · cases h
      · rename_i hdigit
        cases h
        exact consumes_nothing fun t => by rw [readSize, if_neg hstar, if_neg hdigit]

theorem readPrecision_consumes (h : readPrecision s = some (size, rest)) : Consumes readPrecision s size rest := by
  cases s with
  | nil =>
    cases h
    exact consumes_nil rfl
  | cons c s =>
    unfold readPrecision at h
    dsimp only at h
    split at h
    · rename_i hdot
      obtain ⟨found, hfound, h⟩ := Option.map_eq_some_iff.mp h
      cases h
      obtain ⟨source, rfl, hsource⟩ := readSize_consumes hfound
      exact ⟨c :: source, rfl, fun t ht => by
        rw [List.cons_append, readPrecision, if_pos hdot, hsource t ht, Option.map_some]⟩
    · rename_i hdot
      cases h
      exact consumes_nothing fun t => by rw [readPrecision, if_neg hdot]

theorem readOptionalKey_consumes {key : Option Text} (h : readOptionalKey s = some (key, rest)) : Consumes readOptionalKey s key rest := by
  cases s with
  | nil =>
    cases h
    exact consumes_nil rfl
  | cons c s =>
    unfold readOptionalKey at h
    dsimp only at h
    split at h
    · rename_i hopen
      obtain ⟨found, hfound, h⟩ := Option.map_eq_some_iff.mp h
      cases h
      obtain ⟨source, rfl, hsource⟩ := readKey_source hfound
      exact ⟨c :: source, rfl, fun t _ => by
        rw [List.cons_append, readOptionalKey, if_pos hopen, hsource t, Option.map_some]⟩
    · rename_i hopen
      cases h
      exact consumes_nothing fun t => by rw [readOptionalKey, if_neg hopen]

theorem skipLength_source (s : Text) :
    ∃ source, s = source ++ skipLength s ∧ ∀ t, t.head? = (skipLength s).head? → skipLength (source ++ t) = t := by
  cases s with
  | nil =>
    refine ⟨[], rfl, fun t ht => ?_⟩
    rw [List.head?_eq_none_iff.mp ht]
    rfl
  | cons c s =>
    by_cases hc : c = 'h' ∨ c = 'l' ∨ c = 'L'
    · have hskip : ∀ t, skipLength (c :: t) = t := fun t => by rw [skipLength, if_pos hc]
      exact ⟨[c], by rw [hskip, List.singleton_append], fun t _ => hskip t⟩
    · have hskip : ∀ t, skipLength (c :: t) = c :: t := fun t => by rw [skipLength, if_neg hc]
      refine ⟨[], by rw [hskip, List.nil_append], fun t ht => ?_⟩
      rw [hskip] at ht
      cases t with
      | nil => cases ht
      | cons c' t =>
        cases ht
        exact hskip t

/-- A directive is read as what it is whatever follows. -/
theorem readDirective_source (h : readDirective s = some (d, rest)) :
    ∃ source, source ≠ [] ∧ s = source ++ rest ∧ ∀ t, readDirective (source ++ t) = some (d, t) := by
  obtain ⟨⟨key, s₁⟩, hkey, hbind⟩ := Option.bind_eq_some_iff.mp h
  obtain ⟨⟨width, s₂⟩, hwidth, hbind'⟩ := Option.bind_eq_some_iff.mp hbind
  obtain ⟨⟨precision, s₃⟩, hprecision, hlast⟩ := Option.bind_eq_some_iff.mp hbind'
  dsimp only at hwidth hprecision hlast
  clear h hbind hbind'
  obtain ⟨a, rfl, ha⟩ := readOptionalKey_consumes hkey
  obtain ⟨b, hb, hwidths⟩ := readSize_consumes hwidth
  obtain ⟨c, rfl, hprecisions⟩ := readPrecision_consumes hprecision
  obtain ⟨l, hl, hlengths⟩ := skipLength_source s₃
  split at hlast
  · cases hlast
  · rename_i conversion tail hskip
    cases hlast
    rw [hskip] at hl hlengths
    subst hl
    have hflags : s₁ = s₁.takeWhile isFlag ++ (b ++ (c ++ (l ++ conversion :: rest))) := by
      rw [← hb, List.takeWhile_append_dropWhile]
    refine ⟨a ++ (s₁.takeWhile isFlag ++ (b ++ (c ++ (l ++ [conversion])))), by simp, by simpa using hflags, fun t => ?_⟩
    -- each part is followed by what it was followed by, up to the conversion
    have hread : readOptionalKey (a ++ (s₁.takeWhile isFlag ++ (b ++ (c ++ (l ++ conversion :: t))))) =
        some (key, s₁.takeWhile isFlag ++ (b ++ (c ++ (l ++ conversion :: t)))) := by
      apply ha
      rw [congrArg List.head? hflags]
      simp
    obtain ⟨htake, hdrop⟩ : (s₁.takeWhile isFlag ++ (b ++ (c ++ (l ++ conversion :: t)))).takeWhile isFlag = s₁.takeWhile isFlag ∧
        (s₁.takeWhile isFlag ++ (b ++ (c ++ (l ++ conversion :: t)))).dropWhile isFlag = b ++ (c ++ (l ++ conversion :: t)) := by
      apply takeWhile_head
      rw [hb]
      simp
    have hsize : readSize widthLimit (b ++ (c ++ (l ++ conversion :: t))) = some (width, c ++ (l ++ conversion :: t)) := by
      apply hwidths
      simp
    have hpoint : readPrecision (c ++ (l ++ conversion :: t)) = some (precision, l ++ conversion :: t) := by
      apply hprecisions
      simp
    have hlength : skipLength (l ++ conversion :: t) = conversion :: t := hlengths (conversion :: t) rfl
    simp [readDirective, hread, htake, hdrop, hsize, hpoint, hlength]

theorem readDirective_length (h : readDirective s = some (d, rest)) : rest.length < s.length := by
  obtain ⟨source, hsource, rfl, -⟩ := readDirective_source h
  rw [List.length_append]
  exact Nat.lt_add_of_pos_left (List.length_pos_iff.mpr hsource)

end

/-- The pieces of a format string. -/
def pieces (s : Text) : Option (List Piece) :=
  match s with
  | [] => some []
  | c :: s =>
    if c = '%' then
      match _hread : readDirective s with
      | none => none
      | some (d, rest) => (pieces rest).map (.directive (s.take (s.length - rest.length)) d :: ·)
    else (pieces s).map (.char c :: ·)
termination_by s.length
decreasing_by
  · have hrest := readDirective_length _hread
    rw [List.length_cons]
    omega
  · rw [List.length_cons]
    omega

theorem pieces_nil : pieces [] = some [] := by
  unfold pieces
  rfl

theorem pieces_cons {c : Char} (hc : c ≠ '%') (s : Text) : pieces (c :: s) = (pieces s).map (.char c :: ·) := by
  rw [pieces, if_neg hc]

theorem pieces_directive {source rest : Text} {d : Directive} (h : readDirective (source ++ rest) = some (d, rest)) :
    pieces ('%' :: (source ++ rest)) = (pieces rest).map (.directive source d :: ·) := by
  have hsource : (source ++ rest).take ((source ++ rest).length - rest.length) = source := by
    rw [List.length_append, Nat.add_sub_cancel, List.take_left]
  rw [pieces, if_pos rfl]
  split
  · rename_i hnone
    rw [h] at hnone
    cases hnone
  · rename_i d' rest' hread
    rw [h] at hread
    cases hread
    rw [hsource]

/-! ## The arguments -/

/-- What the conversions make of a value. -/
structure Values (V : Type) where
  asInt : V → Option Int
  convert : Text → Option Nat → Option Nat → Char → V → Option Text

inductive Args (V : Type)
  | tuple (items : List V)
  | mapping (whole : V) (get : Text → Option V)

section

variable {V : Type} (values : Values V)

/-- The flags and the size that a directive asks for. A negative width stands for the flag `-`. -/
def takeWidth (flags : Text) : Option Size → List V → Option (Text × Option Nat × List V)
  | none, items => some (flags, none, items)
  | some (.fixed n), items => some (flags, some n, items)
  | some .star, [] => none
  | some .star, v :: items =>
    (values.asInt v).map fun n => (if n < 0 then '-' :: flags else flags, some n.natAbs, items)

def takePrecision : Option Size → List V → Option (Option Nat × List V)
  | none, items => some (none, items)
  | some (.fixed n), items => some (some n, items)
  | some .star, [] => none
  | some .star, v :: items => (values.asInt v).map fun n => (some n.toNat, items)

def conversions : Text := lit "diouxXeEfFgGcrsa"

def takeValue (flags : Text) (width precision : Option Nat) (conversion : Char) (items : List V) : Option (Text × List V) :=
  if conversion = '%' then some (['%'], items)
  else
    match items with
    | [] => none
    | v :: items =>
      if conversions.contains conversion then (values.convert flags width precision conversion v).map (·, items) else none

/-- The items that a directive takes from. A key puts its value in their place. -/
def keyItems (get : Option (Text → Option V)) (key : Option Text) (items : List V) : Option (List V) :=
  match key with
  | none => some items
  | some key => get.bind fun get => (get key).map ([·])

def fillDirective (get : Option (Text → Option V)) (d : Directive) (items : List V) : Option (Text × List V) := do
  let items ← keyItems get d.key items
  let (flags, width, items) ← takeWidth values d.flags d.width items
  let (precision, items) ← takePrecision values d.precision items
  takeValue values flags width precision d.conversion items

/-- A character of the format string, or a directive as it is written and the text it is filled with. -/
inductive Slot
  | own (c : Char)
  | filled (source text : Text)

/-- The format string that the slots are of. -/
def written : List Slot → Text
  | [] => []
  | .own c :: slots => c :: written slots
  | .filled source _ :: slots => '%' :: (source ++ written slots)

/-- The slots with their texts put in. -/
def filledIn : List Slot → Text
  | [] => []
  | .own c :: slots => c :: filledIn slots
  | .filled _ text :: slots => text ++ filledIn slots

/-- The pieces as slots, and the items that are left. -/
def fill (get : Option (Text → Option V)) : List Piece → List V → Option (List Slot × List V)
  | [], items => some ([], items)
  | .char c :: ps, items => (fill get ps items).map fun out => (.own c :: out.1, out.2)
  | .directive source d :: ps, items =>
    (fillDirective values get d items).bind fun (text, items) => (fill get ps items).map fun out => (.filled source text :: out.1, out.2)

/-- The slots of `format % args`. The items of a tuple must all be taken. -/
def slots (format : Text) : Args V → Option (List Slot)
  | .tuple items => (pieces format).bind fun ps => (fill values none ps items).bind fun out =>
      if out.2.isEmpty then some out.1 else none
  | .mapping whole get => (pieces format).bind fun ps => (fill values (some get) ps [whole]).map (·.1)

/-- `format % args`. -/
def percent (format : Text) (args : Args V) : Option Text := (slots values format args).map filledIn

section

variable {values} {get : Option (Text → Option V)} {args : Args V} {ss : List Slot} {ps : List Piece} {items left : List V} {format p : Text}

@[simp] theorem written_append (p : Text) (ss : List Slot) : written (p.map .own ++ ss) = p ++ written ss := by
  induction p with
  | nil => rfl
  | cons c p ih => rw [List.map_cons, List.cons_append, written, ih, List.cons_append]

@[simp] theorem filledIn_append (p : Text) (ss : List Slot) : filledIn (p.map .own ++ ss) = p ++ filledIn ss := by
  induction p with
  | nil => rfl
  | cons c p ih => rw [List.map_cons, List.cons_append, filledIn, ih, List.cons_append]

/-- The slots are filled with the items in their order. -/
inductive Filling (values : Values V) (get : Option (Text → Option V)) : List Slot → List V → List V → Prop
  | nil (items : List V) : Filling values get [] items items
  | own {c : Char} {ss : List Slot} {items left : List V} (hc : c ≠ '%') (h : Filling values get ss items left) :
    Filling values get (.own c :: ss) items left
  | filled {source text : Text} {d : Directive} {ss : List Slot} {items more left : List V}
    (hread : ∀ t, readDirective (source ++ t) = some (d, t)) (hfill : fillDirective values get d items = some (text, more))
    (h : Filling values get ss more left) : Filling values get (.filled source text :: ss) items left

/-- The slots are filled with the arguments. -/
def Takes (values : Values V) (ss : List Slot) : Args V → Prop
  | .tuple items => Filling values none ss items []
  | .mapping whole get => ∃ left, Filling values (some get) ss [whole] left

theorem Filling.pieces (h : Filling values get ss items left) :
    ∃ ps, pieces (written ss) = some ps ∧ fill values get ps items = some (ss, left) := by
  induction h with
  | nil items => exact ⟨[], pieces_nil, rfl⟩
  | own hc h ih =>
    obtain ⟨ps, hps, hfill⟩ := ih
    exact ⟨_, by rw [written, pieces_cons hc, hps, Option.map_some], by rw [fill, hfill, Option.map_some]⟩
  | filled hread htext h ih =>
    obtain ⟨ps, hps, hfill⟩ := ih
    refine ⟨_, by rw [written, pieces_directive (hread _), hps, Option.map_some], ?_⟩
    rw [fill, htext, Option.bind_some]
    dsimp only
    rw [hfill, Option.map_some]

theorem filling_of_fill (hps : pieces format = some ps) (hfill : fill values get ps items = some (ss, left)) :
    written ss = format ∧ Filling values get ss items left := by
  induction format using pieces.induct generalizing ps items ss with
  | case1 =>
    rw [pieces_nil] at hps
    cases hps
    cases hfill
    exact ⟨rfl, .nil _⟩
  | case2 s hread =>
    rw [pieces, if_pos rfl] at hps
    split at hps
    · cases hps
    · rename_i hread'
      rw [hread] at hread'
      cases hread'
  | case3 s d rest hread ih =>
    obtain ⟨source, -, rfl, hsource⟩ := readDirective_source hread
    rw [pieces_directive hread] at hps
    obtain ⟨qs, hqs, hps⟩ := Option.map_eq_some_iff.mp hps
    cases hps
    obtain ⟨⟨text, more⟩, htext, hfill⟩ := Option.bind_eq_some_iff.mp hfill
    obtain ⟨⟨ss', left'⟩, hrest, hfill⟩ := Option.map_eq_some_iff.mp hfill
    cases hfill
    obtain ⟨hwritten, hfilling⟩ := ih hqs hrest
    exact ⟨by rw [written, hwritten], .filled hsource htext hfilling⟩
  | case4 c s hc ih =>
    rw [pieces_cons hc] at hps
    obtain ⟨qs, hqs, hps⟩ := Option.map_eq_some_iff.mp hps
    cases hps
    obtain ⟨⟨ss', left'⟩, hrest, hfill⟩ := Option.map_eq_some_iff.mp hfill
    cases hfill
    obtain ⟨hwritten, hfilling⟩ := ih hqs hrest
    exact ⟨by rw [written, hwritten], .own hc hfilling⟩

/-- The slots of a format string are the ones that it is written as and that take the arguments. -/
theorem slots_eq_some : slots values format args = some ss ↔ written ss = format ∧ Takes values ss args := by
  cases args with
  | tuple items =>
    constructor
    · intro h
      obtain ⟨ps, hps, h⟩ := Option.bind_eq_some_iff.mp h
      obtain ⟨⟨ss', left⟩, hfill, h⟩ := Option.bind_eq_some_iff.mp h
      split at h
      · rename_i hempty
        cases h
        obtain rfl : left = [] := List.isEmpty_iff.mp hempty
        exact filling_of_fill hps hfill
      · cases h
    · rintro ⟨rfl, h⟩
      obtain ⟨ps, hps, hfill⟩ := h.pieces
      rw [slots, hps, Option.bind_some, hfill, Option.bind_some]
      rfl
  | mapping whole get =>
    constructor
    · intro h
      obtain ⟨ps, hps, h⟩ := Option.bind_eq_some_iff.mp h
      obtain ⟨⟨ss', left⟩, hfill, h⟩ := Option.map_eq_some_iff.mp h
      cases h
      obtain ⟨hwritten, hfilling⟩ := filling_of_fill hps hfill
      exact ⟨hwritten, left, hfilling⟩
    · rintro ⟨rfl, left, h⟩
      obtain ⟨ps, hps, hfill⟩ := h.pieces
      rw [slots, hps, Option.bind_some, hfill, Option.map_some]

theorem filling_plain (hp : '%' ∉ p) (h : Filling values get ss items left) : Filling values get (p.map .own ++ ss) items left := by
  induction p with
  | nil => exact h
  | cons c p ih =>
    rw [List.mem_cons, not_or] at hp
    exact .own (Ne.symm hp.1) (ih hp.2)

theorem Filling.plain (h : Filling values get ss items left) (hplain : '%' ∉ written ss) : left = items := by
  induction h with
  | nil items => rfl
  | own hc h ih =>
    rw [written, List.mem_cons, not_or] at hplain
    exact ih hplain.2
  | filled hread hfill h ih => exact absurd (List.mem_cons_self ..) hplain

theorem Filling.tail (h : Filling values get (p.map .own ++ ss) items left) : Filling values get ss items left := by
  induction p with
  | nil => exact h
  | cons c p ih =>
    cases h with
    | own hc h => exact ih h

end

end

end Lib
