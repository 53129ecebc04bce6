import Mathlib.Data.List.Basic

/-!
# Partial transfers

The loops that programs put around `read(2)` and `write(2)`. What the calls do is a script: a call
moves some of what it was asked for, is interrupted, or fails, and a call behind the end of the
script moves as much as there is. A loop that ends without an error has moved exactly what it was
asked for, whatever the script says.
-/

namespace Library.Transfer

variable {α ε : Type*}

/-- The outcome of one call. -/
inductive Call (ε : Type*) where
  | moved (count : Nat)
  | interrupted
  | failed (err : ε)

def await : List (Call ε) → Except ε (List (Call ε))
  | [] => .ok []
  | .interrupted :: calls => await calls
  | .failed err :: _ => .error err
  | .moved _ :: calls => .ok calls

/-- Reads exactly `size` items, with the error `eof` where there are fewer: what was read, what is
left of the input, and the rest of the script. -/
def readFull (eof : ε) (size : Nat) (input : List α) :
    List (Call ε) → Except ε (List α × List α × List (Call ε))
  | [] => if input.length < size then .error eof else .ok (input.take size, input.drop size, [])
  | call :: calls =>
      if size = 0 then .ok ([], input, call :: calls)
      else
        match call with
        | .interrupted => readFull eof size input calls
        | .failed err => .error err
        | .moved count =>
            if input = [] then .error eof
            else
              let count := min (max count 1) (min size input.length)
              match readFull eof (size - count) (input.drop count) calls with
              | .error err => .error err
              | .ok (data, rest, calls) => .ok (input.take count ++ data, rest, calls)

/-- Writes everything, with the error `stuck` where a call moves nothing: what was written, the
error, and the rest of the script. -/
def writeFull (stuck : ε) (data : List α) : List (Call ε) → List α × Option ε × List (Call ε)
  | [] => (data, none, [])
  | call :: calls =>
      if data = [] then ([], none, call :: calls)
      else
        match call with
        | .interrupted => writeFull stuck data calls
        | .failed err => ([], some err, calls)
        | .moved 0 => ([], some stuck, calls)
        | .moved (count + 1) =>
            let next := writeFull stuck (data.drop (count + 1)) calls
            (data.take (count + 1) ++ next.1, next.2)

/-- One read of at most `limit` items, again until it is not interrupted: what was read, what is
left of the input, and the rest of the script. -/
def readSome (limit : Nat) (input : List α) :
    List (Call ε) → Except ε (List α × List α × List (Call ε))
  | [] => .ok (input.take limit, input.drop limit, [])
  | .interrupted :: calls => readSome limit input calls
  | .failed err :: _ => .error err
  | .moved count :: calls =>
      .ok (input.take (min (max count 1) limit), input.drop (min (max count 1) limit), calls)

def copy (stuck : ε) (limit : Nat) :
    Nat → List α → List (Call ε) → List (Call ε) → List α × Option ε
  | 0, _, _, _ => ([], some stuck)
  | rounds + 1, input, reads, writes =>
      match readSome limit input reads with
      | .error err => ([], some err)
      | .ok (data, rest, reads) =>
          if data = [] then ([], none)
          else
            match writeFull stuck data writes with
            | (written, some err, _) => (written, some err)
            | (written, none, writes) =>
                let next := copy stuck limit rounds rest reads writes
                (written ++ next.1, next.2)

/-- What a full read returns is the front of the input. -/
theorem readFull_ok {eof : ε} {size : Nat} {input data rest : List α} {calls left : List (Call ε)}
    (h : readFull eof size input calls = .ok (data, rest, left)) :
    size ≤ input.length ∧ data = input.take size ∧ rest = input.drop size := by
  induction calls generalizing size input data with
  | nil =>
      unfold readFull at h
      split at h
      · cases h
      · rename_i hlong
        cases h
        exact ⟨Nat.le_of_not_lt hlong, rfl, rfl⟩
  | cons call calls ih =>
      unfold readFull at h
      split at h
      · rename_i hzero
        cases h
        subst hzero
        exact ⟨Nat.zero_le _, rfl, rfl⟩
      · rename_i hsize
        cases call with
        | interrupted => exact ih h
        | failed err => cases h
        | moved count =>
            dsimp only at h
            split at h
            · cases h
            · split at h
              · cases h
              · rename_i data' rest' left' hnext
                cases h
                obtain ⟨hle, rfl, rfl⟩ := ih hnext
                rw [List.length_drop] at hle
                generalize hmoved : min (max count 1) (min size input.length) = moved at hle ⊢
                have hmovedSize : moved ≤ size := by omega
                have hmovedLength : moved ≤ input.length := by omega
                refine ⟨by omega, ?_, ?_⟩
                · rw [← List.take_add, Nat.add_sub_cancel' hmovedSize]
                · rw [List.drop_drop, Nat.add_sub_cancel' hmovedSize]

/-- A full write that ends without an error has written everything. -/
theorem writeFull_none {stuck : ε} {data written : List α} {calls left : List (Call ε)}
    (h : writeFull stuck data calls = (written, none, left)) : written = data := by
  induction calls generalizing data written with
  | nil =>
      cases h
      rfl
  | cons call calls ih =>
      unfold writeFull at h
      split at h
      · rename_i hnil
        cases h
        exact hnil.symm
      · cases call with
        | interrupted => exact ih h
        | failed err => cases h
        | moved count =>
            cases count with
            | zero => cases h
            | succ count =>
                obtain ⟨hwritten, hrest⟩ := Prod.mk.inj h
                have hall : (writeFull stuck (data.drop (count + 1)) calls).1 =
                    data.drop (count + 1) := ih (Prod.ext rfl hrest)
                rw [← hwritten, hall, List.take_append_drop]

/-- A read of some items splits the input, and has read nothing only where there is nothing. -/
theorem readSome_ok {limit : Nat} {input data rest : List α} {calls left : List (Call ε)}
    (hlimit : 0 < limit) (h : readSome limit input calls = .ok (data, rest, left)) :
    data ++ rest = input ∧ (data = [] → input = []) := by
  induction calls with
  | nil =>
      cases h
      refine ⟨List.take_append_drop .., fun hnil => ?_⟩
      exact (List.take_eq_nil_iff.mp hnil).resolve_left (Nat.ne_of_gt hlimit)
  | cons call calls ih =>
      cases call with
      | interrupted => exact ih h
      | failed err => cases h
      | moved count =>
          cases h
          refine ⟨List.take_append_drop .., fun hnil => ?_⟩
          exact (List.take_eq_nil_iff.mp hnil).resolve_left (by omega)

/-- A copy that ends without an error has written the input. -/
theorem copy_none {stuck : ε} {limit rounds : Nat} {input written : List α}
    {reads writes : List (Call ε)}
    (hlimit : 0 < limit) (h : copy stuck limit rounds input reads writes = (written, none)) :
    written = input := by
  induction rounds generalizing input written reads writes with
  | zero => cases h
  | succ rounds ih =>
      unfold copy at h
      split at h
      · cases h
      rename_i data rest reads' hread
      obtain ⟨hsplit, hnil⟩ := readSome_ok hlimit hread
      split at h
      · rename_i hdata
        cases h
        exact (hnil hdata).symm
      split at h
      · cases h
      rename_i front writes' hwrite
      obtain ⟨hwritten, hnext⟩ := Prod.mk.inj h
      have hrest : (copy stuck limit rounds rest reads' writes').1 = rest := ih (Prod.ext rfl hnext)
      rw [← hwritten, hrest, writeFull_none hwrite, hsplit]

end Library.Transfer
