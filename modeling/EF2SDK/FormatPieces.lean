import EF2SDK.FormatRender

/-!
# Formats in a row

A format is cut into pieces : characters, `%%` and directives, and a directive the format ends
in (`pieces`). The rendering goes piece by piece (`render_eq_pieces`), and a format put behind
one that ends in no directive adds its own pieces (`pieces_append`), so where the arguments
are those the directives take, renderings are put one behind the other (`renders_append`).

The source reads its format through a pointer. `scanLoop` does so in a memory that ends
with the terminating NUL, where reading further is a fault : it never is one.
-/

set_option autoImplicit false

namespace EF2SDK.Format

/-! ## Pieces -/

/-- A piece of a format, `cut` a directive that the format ends in. -/
inductive Piece where
  | char (c : UInt8)
  | percent
  | directive (d : Directive) (c : UInt8)
  | cut
  deriving DecidableEq

/-- The pieces of a format, as the loop of `ef2_vsnprintf` takes them. -/
def pieces (format : List UInt8) : List Piece :=
  match format with
  | [] => []
  | c :: format =>
    if c ≠ '%'.toUInt8 then .char c :: pieces format
    else if format.head? = some '%'.toUInt8 then .percent :: pieces format.tail
    else
      match _h : parseDirective format with
      | (_, []) => [.cut]
      | (d, specifier :: rest) => .directive d specifier :: pieces rest
termination_by format.length
decreasing_by
  · simp
  · simp
  · have hlen := length_parseDirective format
    simp_all
    omega

/-- The format does not end in a directive. -/
def Complete (format : List UInt8) : Prop :=
  .cut ∉ pieces format

instance (format : List UInt8) : Decidable (Complete format) := by
  unfold Complete
  infer_instance

/-! ## A format behind another -/

variable {f g rest : List UInt8} {c : UInt8}

theorem parsePad_cons (c : UInt8) (f : List UInt8) :
    parsePad (c :: f) = if c = '0'.toUInt8 then ('0'.toUInt8, f) else (' '.toUInt8, c :: f) :=
  rfl

theorem parseLength_cons (hl : c ≠ 'l'.toUInt8) (f : List UInt8) :
    parseLength (c :: f) = if c = 'z'.toUInt8 then (.size, f) else (.default, c :: f) :=
  if_neg hl

theorem parseLength_l (c : UInt8) (f : List UInt8) :
    parseLength ('l'.toUInt8 :: c :: f) =
      if c = 'l'.toUInt8 then (.longLong, f) else (.long, c :: f) :=
  rfl

theorem parsePad_append (h : (parsePad f).2 ≠ []) :
    parsePad (f ++ g) = ((parsePad f).1, (parsePad f).2 ++ g) := by
  cases f with
  | nil => exact absurd rfl h
  | cons c f =>
    rw [List.cons_append, parsePad_cons, parsePad_cons]
    split_ifs <;> rfl

theorem parseWidth_append (w : UInt32) (h : (parseWidth f w).2 ≠ []) :
    parseWidth (f ++ g) w = ((parseWidth f w).1, (parseWidth f w).2 ++ g) := by
  induction f generalizing w with
  | nil => exact absurd rfl h
  | cons c f ih =>
    rw [List.cons_append]
    unfold parseWidth at h ⊢
    by_cases hc : isDigit c = true
    · rw [if_pos hc] at h ⊢
      rw [if_pos hc]
      exact ih _ h
    · rw [if_neg hc, if_neg hc]
      rfl

theorem parseLength_append (h : (parseLength f).2 ≠ []) :
    parseLength (f ++ g) = ((parseLength f).1, (parseLength f).2 ++ g) := by
  cases f with
  | nil => exact absurd rfl h
  | cons c f =>
    by_cases hl : c = 'l'.toUInt8
    · subst hl
      cases f with
      | nil => exact absurd rfl h
      | cons d f =>
        rw [List.cons_append, List.cons_append, parseLength_l, parseLength_l]
        split_ifs <;> rfl
    · rw [List.cons_append, parseLength_cons hl, parseLength_cons hl]
      split_ifs <;> rfl

theorem parseDirective_eq (f : List UInt8) :
    parseDirective f =
      (⟨(parsePad f).1, (parseWidth (parsePad f).2 0).1,
        (parseLength (parseWidth (parsePad f).2 0).2).1⟩,
        (parseLength (parseWidth (parsePad f).2 0).2).2) :=
  rfl

/-- A directive that has its specifier is read the same, whatever stands behind. -/
theorem parseDirective_append {d : Directive} (h : parseDirective f = (d, c :: rest)) :
    parseDirective (f ++ g) = (d, c :: (rest ++ g)) := by
  obtain ⟨hd, hrest⟩ := Prod.mk.inj (parseDirective_eq f ▸ h)
  have hlength : (parseLength (parseWidth (parsePad f).2 0).2).2 ≠ [] := by
    rw [hrest]
    exact List.cons_ne_nil c rest
  have hwidth : (parseWidth (parsePad f).2 0).2 ≠ [] := by
    intro hnil
    rw [hnil] at hlength
    exact hlength rfl
  have hpad : (parsePad f).2 ≠ [] := by
    intro hnil
    rw [hnil] at hwidth
    exact hwidth rfl
  rw [parseDirective_eq, parsePad_append hpad, parseWidth_append _ hwidth,
    parseLength_append hlength, hd, hrest, List.cons_append]

theorem pieces_append (h : Complete f) (g : List UInt8) :
    pieces (f ++ g) = pieces f ++ pieces g := by
  unfold Complete at h
  fun_induction pieces f with
  | case1 => rfl
  | case2 c f hc ih =>
    rw [List.cons_append, pieces, if_pos hc, ih fun hcut => h (List.mem_cons_of_mem _ hcut)]
    rfl
  | case3 c f hc hpercent ih =>
    obtain ⟨f, rfl⟩ := List.head?_eq_some_iff.1 hpercent
    have ih := ih fun hcut => h (List.mem_cons_of_mem _ hcut)
    rw [List.cons_append, pieces, if_neg hc, if_pos (by rfl)]
    exact congrArg (Piece.percent :: ·) ih
  | case4 c f hc hpercent d hd => exact absurd (List.mem_singleton.2 rfl) h
  | case5 c f hc hpercent d specifier rest hd ih =>
    have ih := ih fun hcut => h (List.mem_cons_of_mem _ hcut)
    have hhead : (f ++ g).head? ≠ some '%'.toUInt8 := by
      cases f with
      | nil => exact absurd hd (by simp [parseDirective_eq, parsePad, parseWidth, parseLength])
      | cons b f => exact hpercent
    rw [List.cons_append, pieces, if_neg hc, if_neg hhead]
    split
    · next hd' => exact absurd ((parseDirective_append hd).symm.trans hd') (by simp)
    · next hd' =>
      cases (parseDirective_append hd).symm.trans hd'
      rw [ih]
      rfl

/-! ## The rendering of pieces -/

/-- The text of a piece, with the arguments left. -/
def Piece.render : Piece → List Arg → Option (List UInt8 × List Arg)
  | .char c, args => some ([c], args)
  | .percent, args => some (['%'.toUInt8], args)
  | .directive d c, args => renderConversion d c args
  | .cut, args => some (['%'.toUInt8], args)

def renderPieces : List Piece → List Arg → Option (List UInt8)
  | [], _ => some []
  | p :: ps, args => (p.render args).bind fun r => (renderPieces ps r.2).map (r.1 ++ ·)

theorem render_eq_pieces (format : List UInt8) (args : List Arg) :
    render format args = renderPieces (pieces format) args := by
  fun_induction pieces format generalizing args with
  | case1 => rw [render]; rfl
  | case2 c format hc ih =>
    rw [render_char hc, ih]
    rfl
  | case3 c format hc hpercent ih =>
    obtain rfl := not_not.1 hc
    obtain ⟨format, rfl⟩ := List.head?_eq_some_iff.1 hpercent
    rw [render_percent]
    exact congrArg (Option.map ('%'.toUInt8 :: ·)) (ih args)
  | case4 c format hc hpercent d hd =>
    obtain rfl := not_not.1 hc
    rw [render_cut hpercent hd]
    rfl
  | case5 c format hc hpercent d specifier rest hd ih =>
    obtain rfl := not_not.1 hc
    rw [render_directive hpercent hd]
    simp only [ih]
    rfl

/-! ## The arguments of a format -/

/-- The types an argument is passed as. -/
inductive ArgType where
  | int
  | long
  | longLong
  | size
  | string
  | pointer
  deriving DecidableEq

def Arg.type : Arg → ArgType
  | .int _ => .int
  | .long _ => .long
  | .longLong _ => .longLong
  | .size _ => .size
  | .string _ => .string
  | .pointer _ => .pointer

/-- The type of a number with a length modifier. -/
def Length.type : Length → ArgType
  | .default => .int
  | .long => .long
  | .longLong => .longLong
  | .size => .size

/-- The specifiers that take an argument. -/
def conversionChars : List UInt8 :=
  ['c'.toUInt8, 's'.toUInt8, 'd'.toUInt8, 'i'.toUInt8, 'u'.toUInt8, 'x'.toUInt8, 'X'.toUInt8,
    'p'.toUInt8]

/-- The argument a piece takes, at most one. -/
def Piece.argTypes : Piece → List ArgType
  | .directive d c =>
    if c ∈ conversionChars then
      [if c = 'c'.toUInt8 then .int else if c = 's'.toUInt8 then .string
        else if c = 'p'.toUInt8 then .pointer else d.length.type]
    else []
  | _ => []

/-- One argument for each directive that takes one, of its type. -/
def Takes (format : List UInt8) (args : List Arg) : Prop :=
  args.map Arg.type = (pieces format).flatMap Piece.argTypes

instance (format : List UInt8) (args : List Arg) : Decidable (Takes format args) := by
  unfold Takes
  infer_instance

theorem unsignedArg_type {arg : Arg} {length : Length} (h : arg.type = length.type) :
    ∃ v, ∀ args, unsignedArg (arg :: args) length = some (v, args) := by
  cases length <;> cases arg <;> first | exact ⟨_, fun _ => rfl⟩ | cases h

theorem signedArg_type {arg : Arg} {length : Length} (h : arg.type = length.type) :
    ∃ v, ∀ args, signedArg (arg :: args) length = some (v, args) := by
  cases length <;> cases arg <;> first | exact ⟨_, fun _ => rfl⟩ | cases h

/-- A number fetches an argument of its length. -/
theorem renderConversion_number {d : Directive} {arg : Arg}
    (hspecifier : specifierOf c = .signed ∨ specifierOf c = .unsigned ∨
      ∃ upper, specifierOf c = .hex upper) (h : arg.type = d.length.type) :
    ∃ t, ∀ args, renderConversion d c (arg :: args) = some (t, args) := by
  obtain ⟨v, hv⟩ := unsignedArg_type h
  obtain ⟨w, hw⟩ := signedArg_type h
  unfold renderConversion
  rcases hspecifier with hs | hs | ⟨upper, hs⟩
  · refine ⟨numberField w.natAbs 10 false d.width.toNat d.pad
      (if w < 0 then ['-'.toUInt8] else []), fun args => ?_⟩
    simp only [hs, hw, Option.map_some]
  · refine ⟨numberField v 10 false d.width.toNat d.pad [], fun args => ?_⟩
    simp only [hs, hv, Option.map_some]
  · refine ⟨numberField v 16 upper d.width.toNat d.pad [], fun args => ?_⟩
    simp only [hs, hv, Option.map_some]

/-- A conversion fetches its argument. -/
theorem renderConversion_takes {d : Directive} {arg : Arg} (hc : c ∈ conversionChars)
    (h : arg.type = if c = 'c'.toUInt8 then .int else if c = 's'.toUInt8 then .string
      else if c = 'p'.toUInt8 then .pointer else d.length.type) :
    ∃ t, ∀ args, renderConversion d c (arg :: args) = some (t, args) := by
  simp only [conversionChars, List.mem_cons, List.not_mem_nil, or_false] at hc
  rcases hc with rfl | rfl | rfl | rfl | rfl | rfl | rfl | rfl
  · cases arg <;> first | exact ⟨_, fun _ => rfl⟩ | cases h
  · cases arg <;> first | exact ⟨_, fun _ => rfl⟩ | cases h
  · exact renderConversion_number (Or.inl rfl) h
  · exact renderConversion_number (Or.inl rfl) h
  · exact renderConversion_number (Or.inr (Or.inl rfl)) h
  · exact renderConversion_number (Or.inr (Or.inr ⟨false, rfl⟩)) h
  · exact renderConversion_number (Or.inr (Or.inr ⟨true, rfl⟩)) h
  · cases arg <;> first | exact ⟨_, fun _ => rfl⟩ | cases h

/-- Every other specifier is put behind its `%`. -/
theorem renderConversion_other (hc : c ∉ conversionChars) (d : Directive) (args : List Arg) :
    renderConversion d c args = some (['%'.toUInt8, c], args) := by
  have hne : ∀ b ∈ conversionChars, c ≠ b := fun b hb hcb => hc (hcb ▸ hb)
  have hother : specifierOf c = .other := by
    unfold specifierOf
    rw [if_neg (hne _ (by decide)), if_neg (hne _ (by decide)),
      if_neg (not_or.2 ⟨hne _ (by decide), hne _ (by decide)⟩), if_neg (hne _ (by decide)),
      if_neg (hne _ (by decide)), if_neg (hne _ (by decide)), if_neg (hne _ (by decide))]
  unfold renderConversion
  rw [hother]

/-- A piece fetches its arguments and no others. -/
theorem Piece.render_takes (p : Piece) {a : List Arg} (h : a.map Arg.type = p.argTypes) :
    ∃ t, ∀ b, p.render (a ++ b) = some (t, b) := by
  cases p with
  | char c =>
    obtain rfl := List.map_eq_nil_iff.1 h
    exact ⟨_, fun b => rfl⟩
  | percent =>
    obtain rfl := List.map_eq_nil_iff.1 h
    exact ⟨_, fun b => rfl⟩
  | cut =>
    obtain rfl := List.map_eq_nil_iff.1 h
    exact ⟨_, fun b => rfl⟩
  | directive d c =>
    rw [Piece.argTypes] at h
    by_cases hc : c ∈ conversionChars
    · rw [if_pos hc] at h
      obtain ⟨arg, rfl, htype⟩ := List.map_eq_singleton_iff.1 h
      exact renderConversion_takes hc htype
    · rw [if_neg hc] at h
      obtain rfl := List.map_eq_nil_iff.1 h
      exact ⟨['%'.toUInt8, c], fun b => renderConversion_other hc d b⟩

/-- Pieces that take all their arguments put the same text, whatever is behind. -/
theorem renderPieces_append {ps : List Piece} {a : List Arg}
    (h : a.map Arg.type = ps.flatMap Piece.argTypes) :
    ∃ t, ∀ qs b, renderPieces (ps ++ qs) (a ++ b) = (renderPieces qs b).map (t ++ ·) := by
  induction ps generalizing a with
  | nil =>
    obtain rfl := List.map_eq_nil_iff.1 h
    exact ⟨[], fun qs b => Option.map_id'.symm⟩
  | cons p ps ih =>
    rw [List.flatMap_cons] at h
    obtain ⟨a, a', rfl, ha, ha'⟩ := List.map_eq_append_iff.1 h
    obtain ⟨t, ht⟩ := p.render_takes ha
    obtain ⟨t', ht'⟩ := ih ha'
    refine ⟨t ++ t', fun qs b => ?_⟩
    rw [List.cons_append, renderPieces, List.append_assoc, ht, Option.bind_some, ht',
      Option.map_map]
    simp only [Function.comp_def, List.append_assoc]

/-- A format with its arguments has a rendering. -/
theorem render_takes {a : List Arg} (h : Takes f a) : ∃ t, render f a = some t := by
  obtain ⟨t, ht⟩ := renderPieces_append h
  have hall := ht [] []
  rw [List.append_nil, List.append_nil] at hall
  exact ⟨t ++ [], by rw [render_eq_pieces, hall]; rfl⟩

/-- The rendering of a format behind another. -/
theorem render_append {a b : List Arg} {t t' : List UInt8} (hf : Complete f) (ha : Takes f a)
    (ht : render f a = some t) (ht' : render g b = some t') :
    render (f ++ g) (a ++ b) = some (t ++ t') := by
  rw [render_eq_pieces] at ht ht' ⊢
  obtain ⟨u, hu⟩ := renderPieces_append ha
  have hall := hu [] []
  rw [List.append_nil, List.append_nil, ht] at hall
  obtain rfl : t = u ++ [] := Option.some.inj hall
  rw [pieces_append hf, hu, ht', Option.map_some, List.append_nil]

/-! ## Reading through the pointer -/

/-- Reading the format behind its terminating NUL, or fetching an argument that is not there or
has another type. -/
inductive Fault where
  | read
  | argument
  deriving DecidableEq

/-- `*format`, where `format` is the memory from the pointer on. -/
def peek : List UInt8 → Except Fault UInt8
  | [] => .error .read
  | c :: _ => .ok c

/-- The flag, as `parsePad`. -/
def scanPad (format : List UInt8) : Except Fault (UInt8 × List UInt8) := do
  if (← peek format) = '0'.toUInt8 then return ('0'.toUInt8, format.tail)
  return (' '.toUInt8, format)

/-- The width, as `parseWidth`. -/
def scanWidth : List UInt8 → UInt32 → Except Fault (UInt32 × List UInt8)
  | [], _ => .error .read
  | c :: format, width =>
    if isDigit c then
      scanWidth format
        (if width < 100000 then (width <<< 3) + (width <<< 1) + (c - '0'.toUInt8).toUInt32
        else width)
    else .ok (width, c :: format)

/-- The length modifier, as `parseLength`. -/
def scanLength (format : List UInt8) : Except Fault (Length × List UInt8) := do
  let c ← peek format
  if c = 'l'.toUInt8 then
    if (← peek format.tail) = 'l'.toUInt8 then return (.longLong, format.tail.tail)
    return (.long, format.tail)
  if c = 'z'.toUInt8 then return (.size, format.tail)
  return (.default, format)

def scanDirective (format : List UInt8) : Except Fault (Directive × List UInt8) := do
  let (pad, format) ← scanPad format
  let (width, format) ← scanWidth format 0
  let (length, format) ← scanLength format
  return (⟨pad, width, length⟩, format)

/-! Where it does not fault, the pointer reads what the parsers read. -/

theorem ok_of_bind {α β : Type} {x : Except Fault α} {k : α → Except Fault β} {r : β}
    (h : x >>= k = .ok r) : ∃ a, x = .ok a ∧ k a = .ok r := by
  cases x with
  | error fault => cases h
  | ok a => exact ⟨a, rfl, h⟩

theorem scanPad_cons (c : UInt8) (f : List UInt8) : scanPad (c :: f) = .ok (parsePad (c :: f)) := by
  show (if c = '0'.toUInt8 then Except.ok _ else Except.ok _) = _
  rw [parsePad_cons]
  split_ifs <;> rfl

theorem scanPad_eq {r : UInt8 × List UInt8} (h : scanPad f = .ok r) : r = parsePad f := by
  cases f with
  | nil => cases h
  | cons c f => exact (Except.ok.inj ((scanPad_cons c f).symm.trans h)).symm

theorem scanWidth_eq {w : UInt32} {r : UInt32 × List UInt8} (h : scanWidth f w = .ok r) :
    r = parseWidth f w := by
  induction f generalizing w with
  | nil => cases h
  | cons c f ih =>
    unfold scanWidth at h
    unfold parseWidth
    by_cases hc : isDigit c = true
    · rw [if_pos hc] at h ⊢
      exact ih h
    · rw [if_neg hc] at h ⊢
      exact (Except.ok.inj h).symm

theorem scanLength_cons (hl : c ≠ 'l'.toUInt8) (f : List UInt8) :
    scanLength (c :: f) = .ok (parseLength (c :: f)) := by
  show (if c = 'l'.toUInt8 then _ else if c = 'z'.toUInt8 then Except.ok _ else Except.ok _) = _
  rw [if_neg hl, parseLength_cons hl]
  split_ifs <;> rfl

theorem scanLength_l (c : UInt8) (f : List UInt8) :
    scanLength ('l'.toUInt8 :: c :: f) = .ok (parseLength ('l'.toUInt8 :: c :: f)) := by
  show (if c = 'l'.toUInt8 then Except.ok _ else Except.ok _) = _
  rw [parseLength_l]
  split_ifs <;> rfl

theorem scanLength_eq {r : Length × List UInt8} (h : scanLength f = .ok r) :
    r = parseLength f := by
  cases f with
  | nil => cases h
  | cons c f =>
    by_cases hl : c = 'l'.toUInt8
    · subst hl
      cases f with
      | nil => cases h
      | cons d f => exact (Except.ok.inj ((scanLength_l d f).symm.trans h)).symm
    · exact (Except.ok.inj ((scanLength_cons hl f).symm.trans h)).symm

theorem scanDirective_eq {r : Directive × List UInt8} (h : scanDirective f = .ok r) :
    r = parseDirective f := by
  obtain ⟨p, hp, h⟩ := ok_of_bind h
  obtain ⟨w, hw, h⟩ := ok_of_bind h
  obtain ⟨l, hl, h⟩ := ok_of_bind h
  have hp := scanPad_eq hp
  have hw := scanWidth_eq hw
  have hl := scanLength_eq hl
  subst hp hw hl
  exact (Except.ok.inj h).symm

theorem length_scanDirective {r : Directive × List UInt8} (h : scanDirective f = .ok r) :
    r.2.length ≤ f.length := by
  rw [scanDirective_eq h]
  exact length_parseDirective f

/-- The loop of `ef2_vsnprintf`, as `vsnprintfLoop`, with every read of the format. -/
def scanLoop (o : Output) (format : List UInt8) (args : List Arg) : Except Fault Output :=
  match format with
  | [] => .error .read
  | c :: format =>
    if c = 0 then .ok o
    else if c ≠ '%'.toUInt8 then scanLoop (putc o c) format args
    else
      match peek format with
      | .error fault => .error fault
      | .ok next =>
        if next = '%'.toUInt8 then scanLoop (putc o '%'.toUInt8) format.tail args
        else
          match _h : scanDirective format with
          | .error fault => .error fault
          | .ok (_, []) => .error .read
          | .ok (d, specifier :: rest) =>
            if specifier = 0 then .ok (putc o '%'.toUInt8)
            else
              match conversion o d specifier args with
              | none => .error .argument
              | some (o, args) => scanLoop o rest args
termination_by format.length
decreasing_by
  · simp
  · simp
  · have hlen := length_scanDirective _h
    simp_all
    omega

/-! ## The terminating NUL -/

/-! The NUL is no flag, no digit and no length modifier. -/

theorem scanPad_nul (f : List UInt8) :
    scanPad (f ++ [0]) = .ok ((parsePad f).1, (parsePad f).2 ++ [0]) := by
  cases f with
  | nil => rfl
  | cons c f =>
    rw [List.cons_append, scanPad_cons, parsePad_cons, parsePad_cons]
    split_ifs <;> rfl

theorem scanWidth_nul (f : List UInt8) (w : UInt32) :
    scanWidth (f ++ [0]) w = .ok ((parseWidth f w).1, (parseWidth f w).2 ++ [0]) := by
  induction f generalizing w with
  | nil => rfl
  | cons c f ih =>
    rw [List.cons_append]
    unfold scanWidth parseWidth
    by_cases hc : isDigit c = true
    · rw [if_pos hc, if_pos hc]
      exact ih _
    · rw [if_neg hc, if_neg hc]
      rfl

theorem scanLength_nul (f : List UInt8) :
    scanLength (f ++ [0]) = .ok ((parseLength f).1, (parseLength f).2 ++ [0]) := by
  cases f with
  | nil => rfl
  | cons c f =>
    by_cases hl : c = 'l'.toUInt8
    · subst hl
      cases f with
      | nil => rfl
      | cons d f =>
        rw [List.cons_append, List.cons_append, scanLength_l, parseLength_l, parseLength_l]
        split_ifs <;> rfl
    · rw [List.cons_append, scanLength_cons hl, parseLength_cons hl, parseLength_cons hl]
      split_ifs <;> rfl

theorem scanDirective_nul (f : List UInt8) :
    scanDirective (f ++ [0]) = .ok ((parseDirective f).1, (parseDirective f).2 ++ [0]) := by
  unfold scanDirective
  rw [scanPad_nul]
  show (scanWidth ((parsePad f).2 ++ [0]) 0 >>= _) = _
  rw [scanWidth_nul]
  show (scanLength ((parseWidth (parsePad f).2 0).2 ++ [0]) >>= _) = _
  rw [scanLength_nul]
  rfl

/-! What a parser leaves is the end of its format. -/

theorem parsePad_suffix (f : List UInt8) : (parsePad f).2 <:+ f := by
  cases f with
  | nil => exact List.suffix_refl _
  | cons c f =>
    rw [parsePad_cons]
    split_ifs
    · exact List.suffix_cons c f
    · exact List.suffix_refl _

theorem parseWidth_suffix (f : List UInt8) (w : UInt32) : (parseWidth f w).2 <:+ f := by
  induction f generalizing w with
  | nil => exact List.suffix_refl _
  | cons c f ih =>
    unfold parseWidth
    by_cases hc : isDigit c = true
    · rw [if_pos hc]
      exact (ih _).trans (List.suffix_cons c f)
    · rw [if_neg hc]

theorem parseLength_suffix (f : List UInt8) : (parseLength f).2 <:+ f := by
  cases f with
  | nil => exact List.suffix_refl _
  | cons c f =>
    by_cases hl : c = 'l'.toUInt8
    · subst hl
      cases f with
      | nil => exact List.suffix_cons _ _
      | cons d f =>
        rw [parseLength_l]
        split_ifs
        · exact (List.suffix_cons d f).trans (List.suffix_cons _ _)
        · exact List.suffix_cons _ _
    · rw [parseLength_cons hl]
      split_ifs
      · exact List.suffix_cons c f
      · exact List.suffix_refl _

theorem parseDirective_suffix (f : List UInt8) : (parseDirective f).2 <:+ f :=
  (parseLength_suffix _).trans ((parseWidth_suffix _ 0).trans (parsePad_suffix f))

theorem scanLoop_percent (o : Output) (m : List UInt8) (args : List Arg) :
    scanLoop o ('%'.toUInt8 :: '%'.toUInt8 :: m) args = scanLoop (putc o '%'.toUInt8) m args := by
  rw [scanLoop, if_neg (by decide), if_neg (by simp)]
  show (if '%'.toUInt8 = '%'.toUInt8 then _ else _) = _
  rw [if_pos rfl, List.tail_cons]

theorem scanLoop_directive {m : List UInt8} {b : UInt8} {d : Directive} (hpeek : peek m = .ok b)
    (hb : b ≠ '%'.toUInt8) (hscan : scanDirective m = .ok (d, c :: rest)) (o : Output)
    (args : List Arg) :
    scanLoop o ('%'.toUInt8 :: m) args =
      if c = 0 then .ok (putc o '%'.toUInt8)
      else (conversion o d c args).elim (.error .argument) fun r => scanLoop r.1 rest r.2 := by
  rw [scanLoop, if_neg (by decide), if_neg (by simp), hpeek]
  dsimp only
  rw [if_neg hb]
  split
  · next h => exact absurd (hscan.symm.trans h) (by simp)
  · next h => exact absurd (hscan.symm.trans h) (by simp)
  · next h =>
    cases hscan.symm.trans h
    cases conversion o d c args <;> rfl

/-- The next character, where it is no second `%`. -/
theorem peek_nul (h : f.head? ≠ some '%'.toUInt8) :
    ∃ b, peek (f ++ [0]) = .ok b ∧ b ≠ '%'.toUInt8 := by
  cases f with
  | nil => exact ⟨0, rfl, by decide⟩
  | cons b f => exact ⟨b, rfl, fun hb => h (congrArg some hb)⟩

/-- The specifier of a directive is none where the string has ended, and the scan of the string
reads on behind it. -/
theorem scanLoop_specifier (hpercent : f.head? ≠ some '%'.toUInt8) (hnul : 0 ∉ f) {d : Directive}
    (hd : parseDirective f = (d, c :: rest)) (o : Output) (args : List Arg) :
    0 ∉ rest ∧ scanLoop o ('%'.toUInt8 :: (f ++ [0])) args =
      (conversion o d c args).elim (.error .argument) fun r => scanLoop r.1 (rest ++ [0]) r.2 := by
  obtain ⟨b, hpeek, hb⟩ := peek_nul hpercent
  have hscan := scanDirective_nul f
  have hrest := parseDirective_suffix f
  rw [hd] at hscan hrest
  have hspecifier : c ≠ 0 := by
    rintro rfl
    exact hnul (hrest.subset List.mem_cons_self)
  refine ⟨fun h => hnul (hrest.subset (List.mem_cons_of_mem _ h)), ?_⟩
  rw [scanLoop_directive hpeek hb hscan, if_neg hspecifier]
  rfl

/-- The scan of a string ends at its NUL, and does what the rendering loop does. -/
theorem scanLoop_nul (o : Output) {format : List UInt8} (hnul : 0 ∉ format) (args : List Arg) :
    scanLoop o (format ++ [0]) args
      = (vsnprintfLoop o format args).elim (.error .argument) .ok := by
  fun_induction vsnprintfLoop o format args with
  | case1 o args =>
    rw [List.nil_append, scanLoop, if_pos rfl]
    rfl
  | case2 o args c format hc ih =>
    obtain ⟨hc0, hnul⟩ := List.ne_and_not_mem_of_not_mem_cons hnul
    rw [List.cons_append, scanLoop, if_neg hc0.symm, if_pos hc, ih hnul]
  | case3 o args c format hc hpercent ih =>
    obtain rfl := not_not.1 hc
    obtain ⟨format, rfl⟩ := List.head?_eq_some_iff.1 hpercent
    rw [List.cons_append, List.cons_append, scanLoop_percent]
    exact ih fun h => hnul (List.mem_cons_of_mem _ (List.mem_cons_of_mem _ h))
  | case4 o args c format hc hpercent d hd =>
    obtain rfl := not_not.1 hc
    obtain ⟨b, hpeek, hb⟩ := peek_nul hpercent
    have hscan := scanDirective_nul format
    rw [hd, List.nil_append] at hscan
    rw [List.cons_append, scanLoop_directive hpeek hb hscan, if_pos rfl]
    rfl
  | case5 o args c format hc hpercent d specifier rest hd hnone =>
    obtain rfl := not_not.1 hc
    have hformat : 0 ∉ format := fun h => hnul (List.mem_cons_of_mem _ h)
    obtain ⟨-, hscan⟩ := scanLoop_specifier hpercent hformat hd o args
    rw [List.cons_append, hscan, hnone]
    rfl
  | case6 o args c format hc hpercent d specifier rest hd o' args' hsome ih =>
    obtain rfl := not_not.1 hc
    have hformat : 0 ∉ format := fun h => hnul (List.mem_cons_of_mem _ h)
    obtain ⟨hrest, hscan⟩ := scanLoop_specifier hpercent hformat hd o args
    rw [List.cons_append, hscan, hsome]
    exact ih hrest

/-! ## The law -/

/-- The text is what `ef2_vsnprintf` puts for the format and the arguments. -/
def Renders (format : List UInt8) (args : List Arg) (text : List UInt8) : Prop :=
  (∀ o, vsnprintfLoop o format args = some (putAll o text)) ∧
    (text.length ≤ 0x7FFFFFFF → Prints format args text)

theorem renders_of_render {args : List Arg} {text : List UInt8} (h : render f args = some text) :
    Renders f args text :=
  ⟨fun o => by rw [vsnprintfLoop_eq, h, Option.map_some], prints_render h⟩

/-- Formats put one behind the other render to their texts put one behind the other. `%%` and
unknown specifiers fetch no argument, and the scan of a string ends at its NUL. -/
theorem renders_append :
    (∀ (f g : List UInt8) (a b : List Arg), Complete f → Takes f a → Takes g b →
      ∃ t t', Renders f a t ∧ Renders g b t' ∧ Renders (f ++ g) (a ++ b) (t ++ t')) ∧
    (∀ (o : Output) (f : List UInt8) (args : List Arg),
      vsnprintfLoop o ('%'.toUInt8 :: '%'.toUInt8 :: f) args =
        vsnprintfLoop (putc o '%'.toUInt8) f args) ∧
    (∀ (o : Output) (f rest : List UInt8) (d : Directive) (c : UInt8) (args : List Arg),
      f.head? ≠ some '%'.toUInt8 → parseDirective f = (d, c :: rest) → c ∉ conversionChars →
      vsnprintfLoop o ('%'.toUInt8 :: f) args =
        vsnprintfLoop (putc (putc o '%'.toUInt8) c) rest args) ∧
    ∀ (o : Output) (format : List UInt8) (args : List Arg), 0 ∉ format →
      scanLoop o (format ++ [0]) args = (vsnprintfLoop o format args).elim (.error .argument) .ok
    := by
  refine ⟨fun f g a b hf ha hb => ?_, fun o f args => ?_, fun o f rest d c args hhead hd hc => ?_,
    fun o format args hnul => scanLoop_nul o hnul args⟩
  · obtain ⟨t, ht⟩ := render_takes ha
    obtain ⟨t', ht'⟩ := render_takes hb
    exact ⟨t, t', renders_of_render ht, renders_of_render ht',
      renders_of_render (render_append hf ha ht ht')⟩
  · rw [vsnprintfLoop_eq, vsnprintfLoop_eq, render_percent, Option.map_map]
    rfl
  · rw [vsnprintfLoop_eq, vsnprintfLoop_eq, render_directive hhead hd, renderConversion_other hc,
      Option.bind_some, Option.map_map]
    rfl

/-- `"%5d%%%q"` before `"%s%"`. -/
theorem renders_append_mixed : ∃ t t',
    Renders ("%5d%%%q".toList.map Char.toUInt8) [.int 42] t ∧
      Renders ("%s%".toList.map Char.toUInt8) [.string none] t' ∧
      Renders ("%5d%%%q".toList.map Char.toUInt8 ++ "%s%".toList.map Char.toUInt8)
        [.int 42, .string none] (t ++ t') :=
  renders_append.1 _ _ _ _ (by decide +kernel) (by decide +kernel) (by decide +kernel)

end EF2SDK.Format
