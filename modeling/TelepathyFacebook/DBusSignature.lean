import Mathlib.Data.List.Basic
import Mathlib.Tactic.Common

/-!
# D-Bus signatures

`_SignatureIter` of `tools/libtpcodegen.py`, which cuts a signature into its complete types.
The iterator knows one kind of bracket at a time, the first that it meets, and counts only
these.

`DBusType` is the abstract syntax that signatures stand for.

* `subsigs_eq_iff`: the iterator gives the signatures of some types on the signature of these
  types and on no other string, and loses no character of any.
-/

namespace TelepathyFacebook

namespace Codegen

/-! ## The iterator -/

/-- The loop of `__next__` with `block_depth` and `block_type`: the number of characters up to
the end of the block. -/
def scan : Int → Option Char → List Char → Nat
  | _, _, [] => 1
  | depth, type, c :: s =>
      if c = 'a' then scan depth type s + 1
      else if c = '{' ∨ c = '(' then
        let type := if type = none then some c else type
        scan (if type = some c then depth + 1 else depth) type s + 1
      else if c = '}' then
        let depth := if type = some '{' then depth - 1 else depth
        if depth = 0 then 1 else scan depth type s + 1
      else if c = ')' then
        let depth := if type = some '(' then depth - 1 else depth
        if depth = 0 then 1 else scan depth type s + 1
      else if depth = 0 then 1
      else scan depth type s + 1

/-- `__next__`: the first complete type and what remains; `none` is `StopIteration`. -/
def next (remaining : List Char) : Option (List Char × List Char) :=
  if remaining = [] then none
  else
    let e := scan 0 none remaining
    some (remaining.take e, remaining.drop e)

/-- What a loop over a `Signature` sees, in so many rounds at most. -/
def subsigsIn : Nat → List Char → List (List Char)
  | 0, _ => []
  | fuel + 1, s =>
      match next s with
      | none => []
      | some (t, remaining) => t :: subsigsIn fuel remaining

/-- What a loop over a `Signature` sees; a round takes one character at least. -/
def subsigs (s : List Char) : List (List Char) := subsigsIn s.length s

theorem scan_pos (depth : Int) (type : Option Char) (s : List Char) : 0 < scan depth type s := by
  cases s with
  | nil => exact Nat.one_pos
  | cons c s =>
      rw [scan]
      dsimp only
      split_ifs <;> exact Nat.succ_pos _

/-- The iterator loses nothing of a string, whatever is in it. -/
theorem flatten_subsigsIn {fuel : Nat} {s : List Char} (hfuel : s.length ≤ fuel) :
    (subsigsIn fuel s).flatten = s := by
  induction fuel generalizing s with
  | zero => exact (List.length_eq_zero_iff.mp (Nat.le_zero.mp hfuel)).symm
  | succ fuel ih =>
      rw [subsigsIn, next]
      split_ifs with hs
      · exact hs.symm
      · have hpos := scan_pos 0 none s
        have hlen : (s.drop (scan 0 none s)).length ≤ fuel := by
          rw [List.length_drop]
          omega
        dsimp only
        rw [List.flatten_cons, ih hlen, List.take_append_drop]

theorem flatten_subsigs (s : List Char) : (subsigs s).flatten = s :=
  flatten_subsigsIn (Nat.le_refl _)

/-! ## Types -/

/-- The types that a key of a dictionary can have. -/
inductive Basic where
  | byte
  | boolean
  | int16
  | uint16
  | int32
  | uint32
  | int64
  | uint64
  | double
  | string
  | objectPath
  | signature
  | unixFd
deriving DecidableEq, Repr

def Basic.code : Basic → Char
  | .byte => 'y'
  | .boolean => 'b'
  | .int16 => 'n'
  | .uint16 => 'q'
  | .int32 => 'i'
  | .uint32 => 'u'
  | .int64 => 'x'
  | .uint64 => 't'
  | .double => 'd'
  | .string => 's'
  | .objectPath => 'o'
  | .signature => 'g'
  | .unixFd => 'h'

/-- A complete type. -/
inductive DBusType where
  | basic (b : Basic)
  | variant
  | array (t : DBusType)
  | dict (key : Basic) (value : DBusType)
  | struct (fields : List DBusType)

namespace DBusType

mutual

/-- The signature of a type. -/
def render : DBusType → List Char
  | .basic b => [b.code]
  | .variant => ['v']
  | .array t => 'a' :: render t
  | .dict key value => 'a' :: '{' :: key.code :: (render value ++ ['}'])
  | .struct fields => '(' :: (renderAll fields ++ [')'])

def renderAll : List DBusType → List Char
  | [] => []
  | t :: ts => render t ++ renderAll ts

end

/-- Induction over a type and the fields of its structures. -/
@[elab_as_elim, induction_eliminator]
theorem induction {P : DBusType → Prop} (basic : ∀ b, P (.basic b)) (variant : P .variant)
    (array : ∀ t, P t → P (.array t)) (dict : ∀ key value, P value → P (.dict key value))
    (struct : ∀ fields, (∀ t ∈ fields, P t) → P (.struct fields)) : ∀ t, P t
  | .basic b => basic b
  | .variant => variant
  | .array t => array t (induction basic variant array dict struct t)
  | .dict key value => dict key value (induction basic variant array dict struct value)
  | .struct fields => struct fields fun t _ ↦ induction basic variant array dict struct t

theorem render_ne_nil (t : DBusType) : render t ≠ [] := by
  cases t <;> simp [render]

/-! ## The iterator on types -/

/-- A character that is neither a bracket nor the sign of an array. -/
def IsPlain (c : Char) : Prop := c ≠ 'a' ∧ c ≠ '{' ∧ c ≠ '(' ∧ c ≠ '}' ∧ c ≠ ')'

theorem isPlain_code (b : Basic) : IsPlain b.code := by
  rw [IsPlain]
  cases b <;> decide

theorem isPlain_v : IsPlain 'v' := by
  rw [IsPlain]
  decide

theorem scan_plain {c : Char} (hc : IsPlain c) (depth : Int) (type : Option Char) (s : List Char) :
    scan depth type (c :: s) = if depth = 0 then 1 else scan depth type s + 1 := by
  obtain ⟨h1, h2, h3, h4, h5⟩ := hc
  rw [scan, if_neg h1, if_neg (not_or.mpr ⟨h2, h3⟩), if_neg h4, if_neg h5]

theorem scan_array (depth : Int) (type : Option Char) (s : List Char) :
    scan depth type ('a' :: s) = scan depth type s + 1 := by
  rw [scan, if_pos rfl]

/-- The depth inside of one more bracket. -/
def deeper (depth : Int) (bracket c : Char) : Int := if bracket = c then depth + 1 else depth

theorem deeper_pos {depth : Int} (hdepth : 0 < depth) (bracket c : Char) :
    0 < deeper depth bracket c := by
  rw [deeper]
  split <;> omega

theorem scan_brace (depth : Int) (bracket : Char) (s : List Char) :
    scan depth (some bracket) ('{' :: s) =
      scan (deeper depth bracket '{') (some bracket) s + 1 := by
  simp [scan, deeper]

theorem scan_paren (depth : Int) (bracket : Char) (s : List Char) :
    scan depth (some bracket) ('(' :: s) =
      scan (deeper depth bracket '(') (some bracket) s + 1 := by
  simp [scan, deeper]

theorem scan_endBrace {depth : Int} (hdepth : depth ≠ 0) (bracket : Char) (s : List Char) :
    scan (deeper depth bracket '{') (some bracket) ('}' :: s) =
      scan depth (some bracket) s + 1 := by
  by_cases h : bracket = '{' <;> simp [scan, deeper, h, hdepth]

theorem scan_endParen {depth : Int} (hdepth : depth ≠ 0) (bracket : Char) (s : List Char) :
    scan (deeper depth bracket '(') (some bracket) (')' :: s) =
      scan depth (some bracket) s + 1 := by
  by_cases h : bracket = '(' <;> simp [scan, deeper, h, hdepth]

/-- Inside of a block a list of types is passed over if each of them is. -/
theorem scan_renderAll {depth : Int} {type : Option Char} {ts : List DBusType}
    (h : ∀ t ∈ ts, ∀ s, scan depth type (render t ++ s) = scan depth type s + (render t).length)
    (s : List Char) :
    scan depth type (renderAll ts ++ s) = scan depth type s + (renderAll ts).length := by
  induction ts with
  | nil => rfl
  | cons t ts ih =>
      rw [renderAll, List.append_assoc, h t (List.mem_cons_self ..),
        ih fun t ht ↦ h t (List.mem_cons_of_mem _ ht), List.length_append]
      omega

/-- Inside of a block a type is passed over: its brackets are balanced, of whichever kind the
bracket of the block is. -/
theorem scan_inside {depth : Int} (hdepth : 0 < depth) (bracket : Char) (t : DBusType)
    (s : List Char) : scan depth (some bracket) (render t ++ s) =
      scan depth (some bracket) s + (render t).length := by
  induction t generalizing depth s with
  | basic b =>
      rw [render, List.singleton_append, scan_plain (isPlain_code b),
        if_neg (Int.ne_of_gt hdepth)]
      rfl
  | variant =>
      rw [render, List.singleton_append, scan_plain isPlain_v, if_neg (Int.ne_of_gt hdepth)]
      rfl
  | array t ih =>
      rw [render, List.cons_append, scan_array, ih hdepth, List.length_cons, Nat.add_assoc]
  | dict key value ih =>
      have hin := deeper_pos hdepth bracket '{'
      simp only [render, List.cons_append, List.append_assoc, List.nil_append, List.length_cons,
        List.length_append, List.length_nil]
      rw [scan_array, scan_brace, scan_plain (isPlain_code key), if_neg (Int.ne_of_gt hin),
        ih hin, scan_endBrace (Int.ne_of_gt hdepth)]
      omega
  | struct fields ih =>
      have hin := deeper_pos hdepth bracket '('
      simp only [render, List.cons_append, List.append_assoc, List.nil_append, List.length_cons,
        List.length_append, List.length_nil]
      rw [scan_paren, scan_renderAll fun t ht s ↦ ih t ht hin s,
        scan_endParen (Int.ne_of_gt hdepth)]
      omega

/-- Outside of all blocks the loop stops at the end of the first type. -/
theorem scan_outside (t : DBusType) (s : List Char) :
    scan 0 none (render t ++ s) = (render t).length := by
  induction t generalizing s with
  | basic b => rw [render, List.singleton_append, scan_plain (isPlain_code b), if_pos rfl]; rfl
  | variant => rw [render, List.singleton_append, scan_plain isPlain_v, if_pos rfl]; rfl
  | array t ih => rw [render, List.cons_append, scan_array, ih, List.length_cons]
  | dict key value _ =>
      have hopen (s : List Char) : scan 0 none ('{' :: s) = scan 1 (some '{') s + 1 := by
        simp [scan]
      have hclose : scan 1 (some '{') ('}' :: s) = 1 := by simp [scan]
      simp only [render, List.cons_append, List.append_assoc, List.nil_append, List.length_cons,
        List.length_append, List.length_nil]
      rw [scan_array, hopen, scan_plain (isPlain_code key), if_neg Int.one_ne_zero,
        scan_inside Int.one_pos, hclose]
      omega
  | struct fields _ =>
      have hopen (s : List Char) : scan 0 none ('(' :: s) = scan 1 (some '(') s + 1 := by
        simp [scan]
      have hclose : scan 1 (some '(') (')' :: s) = 1 := by simp [scan]
      simp only [render, List.cons_append, List.append_assoc, List.nil_append, List.length_cons,
        List.length_append, List.length_nil]
      rw [hopen, scan_renderAll fun t _ s ↦ scan_inside Int.one_pos '(' t s, hclose]
      omega

theorem next_render (t : DBusType) (s : List Char) :
    next (render t ++ s) = some (render t, s) := by
  have hne : render t ++ s ≠ [] := fun h ↦ render_ne_nil t (List.append_eq_nil_iff.mp h).1
  rw [next, if_neg hne, scan_outside]
  dsimp only
  rw [List.take_left, List.drop_left]

theorem length_le_renderAll (ts : List DBusType) : ts.length ≤ (renderAll ts).length := by
  induction ts with
  | nil => exact Nat.zero_le _
  | cons t ts ih =>
      have hpos : 0 < (render t).length := List.length_pos_of_ne_nil (render_ne_nil t)
      rw [renderAll, List.length_append, List.length_cons]
      omega

theorem subsigsIn_renderAll {ts : List DBusType} {fuel : Nat} (hfuel : ts.length ≤ fuel) :
    subsigsIn fuel (renderAll ts) = ts.map render := by
  induction ts generalizing fuel with
  | nil => cases fuel <;> rfl
  | cons t ts ih =>
      obtain _ | fuel := fuel
      · cases hfuel
      · rw [renderAll, subsigsIn, next_render]
        exact congrArg (render t :: ·) (ih (Nat.le_of_succ_le_succ hfuel))

theorem subsigs_renderAll (ts : List DBusType) : subsigs (renderAll ts) = ts.map render :=
  subsigsIn_renderAll (length_le_renderAll ts)

theorem flatten_map_render (ts : List DBusType) : (ts.map render).flatten = renderAll ts := by
  induction ts with
  | nil => rfl
  | cons t ts ih => rw [List.map_cons, List.flatten_cons, ih, renderAll]

/-- **Iteration over a signature.**  The iterator gives the signatures of some types, one by one,
on the signature of these types and on no other string, and it loses no character of any string,
well formed or not. -/
theorem subsigs_eq_iff (s : List Char) :
    (∀ ts : List DBusType, subsigs s = ts.map render ↔ s = renderAll ts) ∧
      (subsigs s).flatten = s := by
  refine ⟨fun ts ↦ ⟨fun h ↦ ?_, fun h ↦ h ▸ subsigs_renderAll ts⟩, flatten_subsigs s⟩
  rw [← flatten_subsigs s, h, flatten_map_render]

end DBusType

end Codegen

end TelepathyFacebook
