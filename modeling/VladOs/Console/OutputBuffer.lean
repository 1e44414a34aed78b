import VladOs.Library.Window

namespace VladOs

open Buffer

def OUTPUT_BUFFER_SIZE : ℕ := 4096

structure OutputBuffer where
  bytes : List UInt8
  len : ℕ
  size : bytes.length = OUTPUT_BUFFER_SIZE
  fits : len ≤ OUTPUT_BUFFER_SIZE

namespace OutputBuffer

def empty : OutputBuffer := ⟨List.replicate OUTPUT_BUFFER_SIZE 0,0,List.length_replicate,Nat.zero_le _⟩

def clear (b : OutputBuffer) : OutputBuffer := { b with
  len := 0
  fits := Nat.zero_le _ }

theorem copied_stop (b : OutputBuffer) (bytes : List UInt8) :
    (⟨b.len,bytes.take (min (OUTPUT_BUFFER_SIZE - b.len) bytes.length)⟩ : Patch UInt8).stop =
      b.len + min (OUTPUT_BUFFER_SIZE - b.len) bytes.length := by
  rw [Patch.stop,List.length_take,Nat.min_eq_left (Nat.min_le_right ..)]

def pushBytes (b : OutputBuffer) (bytes : List UInt8) : OutputBuffer where
  bytes :=
    let remaining := OUTPUT_BUFFER_SIZE - b.len
    let count := min remaining bytes.length
    (⟨b.len,bytes.take count⟩ : Patch UInt8).apply b.bytes
  len := b.len + min (OUTPUT_BUFFER_SIZE - b.len) bytes.length
  size := by
    have hfits := b.fits
    have hsize := b.size
    exact (Patch.apply_length (by rw [copied_stop]; omega)).trans hsize
  fits := by
    have hfits := b.fits
    omega

def contains (b : OutputBuffer) (needle : List UInt8) : Bool :=
  if needle.isEmpty then true
  else if needle.length > b.len then false
  else (windows needle.length (b.bytes.take b.len)).any (· == needle)

def text (b : OutputBuffer) : List UInt8 := b.bytes.take b.len

def writeAll (b : OutputBuffer) (chunks : List (List UInt8)) : OutputBuffer := chunks.foldl pushBytes b

def heard (b : OutputBuffer) (log : List (List (List UInt8))) : OutputBuffer :=
  log.foldr (fun chunks b => b.writeAll chunks) b

variable {b : OutputBuffer} {bytes needle : List UInt8}

theorem text_length : b.text.length = b.len := by
  have hfits := b.fits
  have hsize := b.size
  rw [text,List.length_take]
  omega

@[simp] theorem text_clear : b.clear.text = [] := rfl

theorem text_pushBytes (b : OutputBuffer) (bytes : List UInt8) :
    (b.pushBytes bytes).text = (b.text ++ bytes).take OUTPUT_BUFFER_SIZE := by
  have hfits := b.fits
  have hsize := b.size
  rw [List.take_append,List.take_of_length_le (by rw [text_length]; exact hfits),text_length]
  have hstop := copied_stop b bytes
  change ((⟨b.len,_⟩ : Patch UInt8).apply b.bytes).take
    (b.len + min (OUTPUT_BUFFER_SIZE - b.len) bytes.length) = _
  rw [← hstop,Patch.take_apply (by dsimp only; omega)]
  congr 1
  rcases Nat.le_total (OUTPUT_BUFFER_SIZE - b.len) bytes.length with hle | hle
  · rw [Nat.min_eq_left hle]
  · rw [Nat.min_eq_right hle,List.take_length,List.take_of_length_le hle]

theorem text_writeAll (b : OutputBuffer) (chunks : List (List UInt8)) :
    (b.writeAll chunks).text = (b.text ++ chunks.flatten).take OUTPUT_BUFFER_SIZE := by
  induction chunks generalizing b with
  | nil =>
    rw [List.flatten_nil,List.append_nil,List.take_of_length_le (by rw [text_length]; exact b.fits)]
    rfl
  | cons chunk chunks ih =>
    rw [List.flatten_cons,← List.append_assoc,← take_append_taken,← text_pushBytes]
    exact ih (b.pushBytes chunk)

theorem text_heard (b : OutputBuffer) (log : List (List (List UInt8))) :
    (b.heard log).text = (b.text ++ log.reverse.flatMap List.flatten).take OUTPUT_BUFFER_SIZE := by
  induction log with
  | nil => rw [List.reverse_nil,List.flatMap_nil,List.append_nil,
      List.take_of_length_le (by rw [text_length]; exact b.fits)]; rfl
  | cons chunks log ih =>
    change ((b.heard log).writeAll chunks).text = _
    rw [text_writeAll,ih,take_append_taken,List.reverse_cons,List.flatMap_append,List.flatMap_singleton,
      List.append_assoc]

theorem contains_iff (b : OutputBuffer) (needle : List UInt8) :
    b.contains needle = true ↔ needle <:+: b.text := by
  unfold contains
  split_ifs with hempty hlong
  · rw [List.isEmpty_iff] at hempty
    simp [hempty]
  · refine iff_of_false not_false fun hfound => ?_
    have hle := hfound.length_le
    rw [text_length] at hle
    omega
  · change ((windows needle.length b.text).any (· == needle)) = true ↔ _
    rw [List.any_eq_true]
    constructor
    · rintro ⟨window,hwindow,hsame⟩
      obtain rfl := eq_of_beq hsame
      exact (mem_windows.mp hwindow).2
    · exact fun hfound => ⟨needle,mem_windows.mpr ⟨rfl,hfound⟩,beq_self_eq_true _⟩

end OutputBuffer

end VladOs
