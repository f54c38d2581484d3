import FrpMeo.Lib.Text

/-!
# Pages of a list

How the dashboard reads the number and the size of a page, and what it shows of a list
(`server/http/controller_v2.go`). The arithmetic keeps 64 bits.
-/

namespace FrpMeo.Server.Pages

open Lib.Text

variable {T : Type}

def maxInt : Int := 2 ^ 63 - 1

def wrap (n : Int) : Int := n.bmod (2 ^ 64)

def defaultV2Page : Int := 1

def defaultV2PageSize : Int := 50

def maxV2PageSize : Int := 200

/-- An error is the text of a response with status 400. -/
def parseV2PositiveInt (raw : String) (defaultValue : Int) (name : String) : Except String Int :=
  if raw = "" then .ok defaultValue
  else
    match atoi raw with
    | some value =>
      if value < 1 then .error (name ++ " must be a positive integer") else .ok value
    | none => .error (name ++ " must be a positive integer")

def parseV2PageParams (page pageSize : String) : Except String (Int × Int) := do
  let page ← parseV2PositiveInt page defaultV2Page "page"
  let pageSize ← parseV2PositiveInt pageSize defaultV2PageSize "pageSize"
  if maxV2PageSize < pageSize then .error "pageSize must be between 1 and 200"
  else if maxInt.tdiv pageSize < page then .error "page is too large"
  else .ok (page, pageSize)

/-- A slice of a slice; `none` is a panic. -/
def slice (items : List T) (start stop : Int) : Option (List T) :=
  if 0 ≤ start ∧ start ≤ stop ∧ stop ≤ items.length then
    some ((items.drop start.toNat).take (stop - start).toNat)
  else none

def paginateV2Items (items : List T) (page pageSize : Int) : Option (List T) :=
  let start := wrap (wrap (page - 1) * pageSize)
  if items.length ≤ start then some []
  else slice items start (min (wrap (start + pageSize)) items.length)

structure V2PageResp (T : Type) where
  total : Int
  page : Int
  pageSize : Int
  items : List T

def buildV2PageResp (items : List T) (page pageSize : Int) : Option (V2PageResp T) :=
  (paginateV2Items items page pageSize).map fun shown => ⟨items.length, page, pageSize, shown⟩

/-- A list in the memory of a process, whose addresses have 48 bits. -/
structure Slice (T : Type) where
  items : List T
  fits : items.length ≤ 2 ^ 48

/-! ## Coverage -/

structure Accepted (page pageSize : Int) : Prop where
  page_pos : 1 ≤ page
  size_pos : 1 ≤ pageSize
  size_le : pageSize ≤ maxV2PageSize
  fits : page * pageSize ≤ maxInt

variable {rawPage rawSize : String} {page pageSize : Int} {items : List T}

theorem pos_of_parseV2PositiveInt {raw name : String} {defaultValue value : Int}
    (h : parseV2PositiveInt raw defaultValue name = .ok value) (hdefault : 1 ≤ defaultValue) :
    1 ≤ value := by
  unfold parseV2PositiveInt at h
  grind

theorem parseV2PageParams_eq_ok_iff : parseV2PageParams rawPage rawSize = .ok (page, pageSize) ↔
      parseV2PositiveInt rawPage defaultV2Page "page" = .ok page ∧
      parseV2PositiveInt rawSize defaultV2PageSize "pageSize" = .ok pageSize ∧
      Accepted page pageSize := by
  unfold parseV2PageParams
  cases hpage : parseV2PositiveInt rawPage defaultV2Page "page" with
  | error e => simp [bind, Except.bind]
  | ok p =>
    cases hsize : parseV2PositiveInt rawSize defaultV2PageSize "pageSize" with
    | error e => simp [bind, Except.bind]
    | ok k =>
      have hp := pos_of_parseV2PositiveInt hpage (by decide)
      have hk := pos_of_parseV2PositiveInt hsize (by decide)
      have hdiv : maxInt.tdiv k < p ↔ ¬ p * k ≤ maxInt := by
        rw [Int.tdiv_eq_ediv_of_nonneg (by decide), ← Int.le_ediv_iff_mul_le (by omega), not_le]
      simp only [bind, Except.bind, hdiv]
      constructor
      · intro h
        split_ifs at h with hmax hfits
        cases h
        exact ⟨rfl, rfl, hp, hk, by omega, hfits⟩
      · rintro ⟨⟨⟩, ⟨⟩, h⟩
        rw [if_neg (not_lt.2 h.size_le), if_neg (not_not.2 h.fits)]

theorem Accepted.start_nonneg (h : Accepted page pageSize) : 0 ≤ (page - 1) * pageSize :=
  mul_nonneg (by linarith [h.page_pos]) (by linarith [h.size_pos])

theorem Accepted.stop_le (h : Accepted page pageSize) :
    (page - 1) * pageSize + pageSize ≤ maxInt := by
  have := h.fits
  linarith

theorem wrap_of_le {n : Int} (h0 : 0 ≤ n) (h : n ≤ maxInt) : wrap n = n := by
  unfold maxInt at h
  exact Int.bmod_eq_of_le (by omega) (by omega)

theorem paginateV2Items_eq (h : Accepted page pageSize) (items : List T) :
    paginateV2Items items page pageSize =
      some ((items.drop ((page - 1) * pageSize).toNat).take pageSize.toNat) := by
  have h0 := h.start_nonneg
  have hstop := h.stop_le
  have hsize := h.size_pos
  have hpage : wrap (page - 1) = page - 1 :=
    wrap_of_le (by linarith [h.page_pos]) (by nlinarith [h.page_pos, h.fits])
  simp only [paginateV2Items, slice, hpage]
  generalize (page - 1) * pageSize = start at *
  rw [wrap_of_le h0 (by omega), wrap_of_le (by omega) hstop]
  split_ifs with hlen hslice
  · rw [List.drop_eq_nil_of_le (by omega), List.take_nil]
  · congr 1
    rcases le_total (start + pageSize) items.length with hle | hle
    · rw [min_eq_left hle, add_sub_cancel_left]
    · rw [min_eq_right hle, List.take_of_length_le (by simp; omega),
        List.take_of_length_le (by simp; omega)]
  · omega

theorem flatMap_pages (k n : Nat) :
    ((List.range n).flatMap fun i => (items.drop (i * k)).take k) = items.take (n * k) := by
  induction n with
  | zero => simp
  | succ n ih =>
    rw [List.range_succ, List.flatMap_append, ih, Nat.succ_mul, List.take_add]
    simp

end FrpMeo.Server.Pages
