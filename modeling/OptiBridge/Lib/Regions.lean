import OptiBridge.Lib.Bytes

/-!
# OptiBridge.Lib.Regions

A flat buffer cut into adjacent regions is one memory for each region: a write
to a region is read back from it, and from no other.  A memory is the history of
its writes; the last one that covers a byte says what it holds.

Nothing is said about what an element is, nor about who writes.  A buffer that is
laid out by a list of lengths is at every moment the concatenation of its
regions, so a write that is known to stay within its region is one more entry of
that region's history (`copySlice_region`).

* `start_add_lt` and `start_add_lt_sum`, a place within a region is before the
  next and within the buffer;
* `copySlice_region`, a write to one region, seen from any region.
-/

namespace Regions

variable {α : Type}

/-- A write of some elements to one region. -/
structure Write (α : Type) where
  region : Nat
  offset : Nat
  elements : List α

/-- The element a write leaves at a place, if it covers it. -/
def Write.at? (w : Write α) (region offset : Nat) : Option α :=
  if w.region = region ∧ w.offset ≤ offset then w.elements[offset - w.offset]? else none

/-- What the last write that covers a place left there; the newest write is the
last in the list. -/
def last (writes : List (Write α)) (region offset : Nat) : Option α :=
  writes.foldl (fun value w => (w.at? region offset).or value) none

@[simp] theorem last_nil (region offset : Nat) : last ([] : List (Write α)) region offset = none :=
  rfl

theorem last_concat (writes : List (Write α)) (w : Write α) (region offset : Nat) :
    last (writes ++ [w]) region offset = (w.at? region offset).or (last writes region offset) := by
  simp [last]

/-! ## regions of a buffer -/

/- Where each region begins: the sum of the lengths before it. -/

/-- Where a region begins: after the ones before it. -/
def start (sizes : List Nat) (region : Nat) : Nat := (sizes.take region).sum

/-- The next region begins where this one ends. -/
theorem start_succ {sizes : List Nat} {region : Nat} (h : region < sizes.length) :
    start sizes (region + 1) = start sizes region + sizes[region] := by
  rw [start, ← List.take_append_getElem h, List.sum_append, List.sum_singleton]
  rfl

/-- Later regions begin later. -/
theorem start_mono {sizes : List Nat} {i j : Nat} (h : i ≤ j) : start sizes i ≤ start sizes j := by
  have htake : sizes.take j = sizes.take i ++ (sizes.drop i).take (j - i) := by
    rw [← List.take_add, Nat.add_sub_cancel' h]
  rw [start, start, htake, List.sum_append]
  exact Nat.le_add_right _ _

/-- No region begins outside the buffer. -/
theorem start_le_sum (sizes : List Nat) (region : Nat) : start sizes region ≤ sizes.sum := by
  conv => rhs; rw [← List.take_append_drop region sizes, List.sum_append]
  exact Nat.le_add_right _ _

/-- A place in a region lies before the regions after it. -/
theorem start_add_lt {sizes : List Nat} {i j offset : Nat} (hi : i < sizes.length) (hij : i < j)
    (hoffset : offset < sizes[i]) : start sizes i + offset < start sizes j :=
  calc start sizes i + offset
      < start sizes i + sizes[i] := Nat.add_lt_add_left hoffset _
    _ = start sizes (i + 1) := (start_succ hi).symm
    _ ≤ start sizes j := start_mono hij

/-- A place in a region lies in the buffer. -/
theorem start_add_lt_sum {sizes : List Nat} {i offset : Nat} (hi : i < sizes.length)
    (hoffset : offset < sizes[i]) : start sizes i + offset < sizes.sum := by
  have hlt := start_add_lt hi (Nat.lt_succ_self i) hoffset
  exact Nat.lt_of_lt_of_le hlt (start_le_sum sizes _)

variable {n : Nat}

/-- **Regions.** A copy within one region is a write to that region alone. -/
theorem copySlice_region {sizes : List Nat} (hsum : sizes.sum ≤ n) (buffer : Vector α n)
    (w : Write α) (hregion : w.region < sizes.length)
    (hfit : w.offset + w.elements.length ≤ sizes[w.region]) {region offset : Nat}
    (h : region < sizes.length) (hoffset : offset < sizes[region]) :
    (Bytes.copySlice buffer (start sizes w.region + w.offset) w.elements)[start sizes region +
        offset]? = (w.at? region offset).or buffer[start sizes region + offset]? := by
  have hlt : start sizes region + offset < n :=
    Nat.lt_of_lt_of_le (start_add_lt_sum h hoffset) hsum
  rw [Vector.getElem?_eq_getElem hlt, Vector.getElem?_eq_getElem hlt, Write.at?]
  by_cases hcovered : w.region = region ∧ w.offset ≤ offset ∧
      offset < w.offset + w.elements.length
  · obtain ⟨rfl, hlo, hhi⟩ := hcovered
    have hindex : start sizes w.region + offset - (start sizes w.region + w.offset) =
        offset - w.offset := by omega
    rw [Bytes.getElem_copySlice_of_mem _ _ _ hlt (by omega) (by omega), if_pos ⟨rfl, hlo⟩,
      List.getElem?_eq_getElem (by omega)]
    simp only [hindex, Option.some_or]
  · have houtside : ¬ (start sizes w.region + w.offset ≤ start sizes region + offset ∧
        start sizes region + offset < start sizes w.region + w.offset + w.elements.length) := by
      rintro ⟨hlo, hhi⟩
      -- another region lies before the copy or after it
      rcases Nat.lt_trichotomy w.region region with hbefore | rfl | hafter
      · have hmono : start sizes (w.region + 1) ≤ start sizes region := start_mono hbefore
        have hdisjoint := start_succ hregion ▸ hmono
        omega
      · exact hcovered ⟨rfl, by omega, by omega⟩
      · have hdisjoint := start_add_lt h hafter hoffset
        omega
    have hnone : (if w.region = region ∧ w.offset ≤ offset then
        w.elements[offset - w.offset]? else none) = none := by
      split_ifs with hcond
      · rw [List.getElem?_eq_none]
        by_contra hlen
        exact hcovered ⟨hcond.1, hcond.2, by omega⟩
      · rfl
    rw [Bytes.getElem_copySlice_of_not_mem _ _ _ hlt houtside, hnone, Option.none_or]

end Regions
