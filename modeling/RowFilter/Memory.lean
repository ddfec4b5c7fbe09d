import RowFilter.Error

/-!
# Memory budgets

A `Budget` counts the bytes that are reserved from it and may limit them. Reserving is the only
step that can be refused. All byte counts are below `2 ^ 64`, and sums and differences stop at the
ends of that range. A `Reservation` is the holder of bytes that are given back all at once.
-/

namespace RowFilter

/-- The greatest byte count. -/
def maxBytes : Nat := 0xFFFFFFFFFFFFFFFF

inductive Budget
  /-- Grants everything and counts nothing. -/
  | uncounted
  /-- Counts bytes, up to a limit; the limit `0` means that there is none. -/
  | counted (limit used : Nat)
  deriving DecidableEq, Inhabited

namespace Budget

/-- A budget with a limit, and nothing reserved. -/
def limited (limit : Nat) : Budget := counted limit 0

/-- A budget that counts without a limit. -/
def unlimited : Budget := limited 0

def used : Budget → Nat
  | uncounted => 0
  | counted _ used => used

def limit : Budget → Nat
  | uncounted => 0
  | counted limit _ => limit

/-- Bytes that may still be reserved. -/
def available (b : Budget) : Nat := if b.limit = 0 then maxBytes else b.limit - b.used

/-- The budget after bytes were reserved from it. -/
def reserve (b : Budget) (bytes : Nat) : Except Error Budget :=
  match b with
  | uncounted => .ok uncounted
  | counted limit used =>
    let total := min (used + bytes) maxBytes
    if 0 < bytes ∧ 0 < limit ∧ limit < total then
      .error (.memoryRefused (.limit used bytes limit))
    else .ok (counted limit total)

/-- The budget after bytes were given back to it; no more than all of them. -/
def release (b : Budget) (bytes : Nat) : Budget :=
  match b with
  | uncounted => uncounted
  | counted limit used => counted limit (used - bytes)

end Budget

/-- Bytes held from a budget until they are given back as a whole. -/
structure Reservation where
  bytes : Nat
  deriving DecidableEq, Inhabited

namespace Reservation

/-- Reserves bytes, and returns the budget after that. -/
def make (b : Budget) (bytes : Nat) : Except Error (Reservation × Budget) :=
  (b.reserve bytes).map fun after => (⟨bytes⟩, after)

/-- The budget after the bytes were given back. -/
def drop (r : Reservation) (b : Budget) : Budget := b.release r.bytes

end Reservation

end RowFilter
