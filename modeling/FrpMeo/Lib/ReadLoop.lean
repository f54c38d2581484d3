import FrpMeo.Lib.Bytes

/-!
# Loops over the messages of a stream

A sender writes messages and stops at the first error (`writeAll`); a receiver reads and handles
messages until either fails (`run`). Where every message is read back as written, the receiver has
handled exactly the messages of the sender (`run_writeAll`).
-/

namespace FrpMeo.Lib.ReadLoop

universe u v w

variable {M : Type u} {S : Type v} {E : Type w}

def writeAll (write : M → Except E Bytes) : List M → Bytes
  | [] => []
  | m :: ms =>
      match write m with
      | .error _ => []
      | .ok bytes => bytes ++ writeAll write ms

/-- At most `n` rounds of the loop, each on the message at the front; the error is the one that ends
the loop. -/
def serve (read : Bytes → Except E (M × Bytes)) (handle : S → M → S × Option E) :
    Nat → S → Bytes → S × Option E
  | 0, s, _ => (s, none)
  | n + 1, s, bytes =>
      match read bytes with
      | .error err => (s, some err)
      | .ok (m, rest) =>
          match handle s m with
          | (s, some err) => (s, some err)
          | (s, none) => serve read handle n s rest

/-- The loop on the whole stream. A message takes at least a byte, so the rounds suffice. -/
def run (read : Bytes → Except E (M × Bytes)) (handle : S → M → S × Option E) (s : S)
    (bytes : Bytes) : S × Option E :=
  serve read handle (bytes.length + 1) s bytes

def handleAll (handle : S → M → S × Option E) : S → List M → S × Option E
  | s, [] => (s, none)
  | s, m :: ms =>
      match handle s m with
      | (s, some err) => (s, some err)
      | (s, none) => handleAll handle s ms

def Carries (write : M → Except E Bytes) (read : Bytes → Except E (M × Bytes)) (m : M) : Prop :=
  ∃ bytes, write m = .ok bytes ∧ bytes ≠ [] ∧ ∀ rest, read (bytes ++ rest) = .ok (m, rest)

section Rules

variable {write : M → Except E Bytes} {read : Bytes → Except E (M × Bytes)}
  {handle : S → M → S × Option E} {s s' : S} {ms : List M} {bytes : Bytes} {err : E}

theorem run_of_error (h : read bytes = .error err) : run read handle s bytes = (s, some err) := by
  simp only [run, serve, h]

theorem writeAll_cons {m : M} (h : write m = .ok bytes) :
    writeAll write (m :: ms) = bytes ++ writeAll write ms := by
  simp only [writeAll, h]

theorem handleAll_cons {m : M} (h : handle s m = (s', none)) :
    handleAll handle s (m :: ms) = handleAll handle s' ms := by
  simp only [handleAll, h]

/-- A message that the handler takes goes on with the others. -/
theorem handle_of_handleAll_cons {m : M} (h : handleAll handle s (m :: ms) = (s', none)) :
    ∃ s1, handle s m = (s1, none) ∧ handleAll handle s1 ms = (s', none) := by
  rcases hm : handle s m with ⟨s1, err⟩
  cases err with
  | some err => simp [handleAll, hm] at h
  | none => exact ⟨s1, rfl, by rwa [handleAll_cons hm] at h⟩

theorem length_le_writeAll (h : ∀ m ∈ ms, Carries write read m) :
    ms.length ≤ (writeAll write ms).length := by
  induction ms with
  | nil => exact Nat.zero_le _
  | cons m ms ih =>
    obtain ⟨bytes, hwrite, hne, -⟩ := h m List.mem_cons_self
    have hrest := ih fun m hm => h m (List.mem_cons_of_mem _ hm)
    have hpos : 0 < bytes.length := List.length_pos_of_ne_nil hne
    rw [writeAll_cons hwrite, List.length_cons, List.length_append]
    omega

/-- One round for each message that was written. -/
theorem serve_writeAll (h : ∀ m ∈ ms, Carries write read m)
    (hhandle : handleAll handle s ms = (s', none)) (n : Nat) (rest : Bytes) :
    serve read handle (ms.length + n) s (writeAll write ms ++ rest) =
      serve read handle n s' rest := by
  induction ms generalizing s with
  | nil =>
    cases hhandle
    rw [List.length_nil, Nat.zero_add, writeAll, List.nil_append]
  | cons m ms ih =>
    obtain ⟨bytes, hwrite, -, hread⟩ := h m List.mem_cons_self
    obtain ⟨s1, hm, hms⟩ := handle_of_handleAll_cons hhandle
    have hround : (m :: ms).length + n = (ms.length + n) + 1 := by
      rw [List.length_cons]
      omega
    rw [writeAll_cons hwrite, hround, List.append_assoc]
    simp only [serve, hread, hm]
    exact ih (fun m hm => h m (List.mem_cons_of_mem _ hm)) hms

/-- The receiver handles what the sender has written, and then sees the end of the stream. -/
theorem run_writeAll (h : ∀ m ∈ ms, Carries write read m)
    (hhandle : handleAll handle s ms = (s', none)) (hend : read [] = .error err) :
    run read handle s (writeAll write ms) = (s', some err) := by
  have hle := length_le_writeAll h
  have hrounds : (writeAll write ms).length + 1 =
      ms.length + ((writeAll write ms).length - ms.length + 1) := by omega
  have hserve := serve_writeAll h hhandle ((writeAll write ms).length - ms.length + 1) []
  rw [List.append_nil, ← hrounds] at hserve
  rw [run, hserve]
  simp only [serve, hend]

end Rules

end FrpMeo.Lib.ReadLoop
