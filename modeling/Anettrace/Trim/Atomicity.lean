import Anettrace.Library.Overlay
import Anettrace.Trim.File

/-!
# All or nothing

A trim that fails leaves every name as it was, and one that succeeds leaves the trimmed trace under
the name of the file and nothing under the temporary name. The one exception is a file that had the
temporary name before: the exclusive open fails on it, and the way out removes it.
-/

namespace Anettrace.Trim

open Library Library.Transfer

/-! ## What a stream without an error has written -/

theorem readVarintCalls_ok {shift result : Nat} {input : List UInt8}
    {calls left : List (Call FileErrno)} {found : Option (Nat × List UInt8)}
    (h : readVarintCalls shift result input calls = .ok (found, left)) :
    readVarintFdFrom shift result input = .ok found := by
  induction input generalizing shift result calls with
  | nil =>
      unfold readVarintCalls at h
      split at h
      · cases h
      · split at h
        · rename_i hzero
          cases h
          exact if_pos hzero
        · cases h
  | cons byte input ih =>
      unfold readVarintCalls at h
      rw [readVarintFdFrom]
      split at h
      · cases h
      rename_i hshift
      rw [if_neg hshift]
      split at h
      · cases h
      split at h
      · cases h
      rename_i hlast
      rw [if_neg hlast]
      dsimp only at h ⊢
      split at h
      · rename_i hend
        cases h
        exact if_pos hend
      · rename_i hmore
        rw [if_neg hmore]
        exact ih h

theorem writePacket_none {trimmed written : List UInt8} {calls left : List (Call FileErrno)}
    (h : writePacket trimmed calls = (written, none, left)) :
    written = writeVarintFd (1 <<< 3 ||| 2) ++ writeVarintFd trimmed.length ++ trimmed := by
  unfold writePacket at h
  obtain ⟨key, keyErr, calls, hkey⟩ : ∃ key keyErr after,
    writeFull .eio (writeVarintFd (1 <<< 3 ||| 2)) calls = (key, keyErr, after) := ⟨_, _, _, rfl⟩
  rw [hkey] at h
  cases keyErr with
  | some err => cases h
  | none =>
      obtain ⟨size, sizeErr, calls, hsize⟩ : ∃ size sizeErr after,
        writeFull .eio (writeVarintFd trimmed.length) calls = (size, sizeErr, after) :=
        ⟨_, _, _, rfl⟩
      simp only [Option.isSome_none, Bool.false_eq_true, if_false, hsize] at h
      cases sizeErr with
      | some err => cases h
      | none =>
          obtain ⟨data, dataErr, calls, hdata⟩ : ∃ data dataErr after,
            writeFull .eio trimmed calls = (data, dataErr, after) := ⟨_, _, _, rfl⟩
          simp only [Option.isSome_none, Bool.false_eq_true, if_false, hdata] at h
          cases h
          rw [writeFull_none hkey, writeFull_none hsize, writeFull_none hdata]

/-- Whatever the calls move, a stream that ends without an error has been trimmed as if each of them
had moved everything. -/
theorem trimStreamCalls_none {boottimeCutoffNs monotonicCutoffNs rounds : Nat} {state : TrimState}
    {input written : List UInt8} {script : Script}
    (h : trimStreamCalls boottimeCutoffNs monotonicCutoffNs rounds state input script =
      (written, none)) :
    trimStreamIn boottimeCutoffNs monotonicCutoffNs rounds state input = (written, none) := by
  induction rounds generalizing state input written script with
  | zero => cases h
  | succ rounds ih =>
      unfold trimStreamCalls at h
      unfold trimStreamIn readVarintFd
      split at h
      · cases h
      · rename_i hend
        cases h
        rw [readVarintCalls_ok hend]
      rename_i key input' reads hkey
      rw [readVarintCalls_ok hkey]
      dsimp only
      split at h
      · cases h
      rename_i hten
      rw [if_neg hten]
      split at h
      · cases h
      · cases h
      rename_i size body reads' hsize
      rw [readVarintCalls_ok hsize]
      dsimp only at h ⊢
      split at h
      · cases h
      split at h
      · cases h
      rename_i packet rest reads'' hread
      obtain ⟨hlong, rfl, rfl⟩ := readFull_ok hread
      rw [if_neg (Nat.not_lt.mpr hlong)]
      split at h
      · cases h
      cases hpacket : trimPacket boottimeCutoffNs monotonicCutoffNs state (body.take size) with
      | error err =>
          rw [hpacket] at h
          cases h
      | ok found =>
          obtain ⟨state', kept⟩ := found
          rw [hpacket] at h
          cases kept with
          | none => exact ih h
          | some trimmed =>
              obtain ⟨data, err, writes, hwrite⟩ : ∃ data err writes,
                writePacket trimmed script.writes = (data, err, writes) := ⟨_, _, _, rfl⟩
              simp only [hwrite] at h
              cases err with
              | some err => cases h
              | none =>
                  obtain ⟨hwritten, hnone⟩ := Prod.mk.inj h
                  have hrest := ih (Prod.ext rfl hnone)
                  dsimp only
                  rw [hrest, ← hwritten, writePacket_none hwrite, not_not.mp hten]

/-! ## The file -/

variable {system : System} {boottimeCutoffNs monotonicCutoffNs : Nat} {files : Files} {path : Path}

theorem trimEntry_none {script : Script} {input : Entry} {written : List UInt8}
    (h : trimEntry script boottimeCutoffNs monotonicCutoffNs input = (written, none)) :
    ∃ content, input = .file content ∧
      perfettoTrimStream boottimeCutoffNs monotonicCutoffNs content = (written, none) := by
  cases input with
  | file content => exact ⟨content, rfl, trimStreamCalls_none h⟩
  | directory => cases h

end Anettrace.Trim
