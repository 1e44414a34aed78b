import VladOs.Library.Iteration

namespace VladOs

open Code

abbrev BUFFER_HEIGHT : ℕ := 25
abbrev BUFFER_WIDTH : ℕ := 80
abbrev COLOR_BYTE : UInt8 := 0x0f
abbrev NEWLINE : UInt8 := 0x0a
abbrev SPACE : UInt8 := 0x20

structure Writer where
  columnPosition : ℕ
  rowPosition : ℕ
  buffer : ℕ → UInt8

def cellOffset (row col : ℕ) : Option ℕ :=
  if row < BUFFER_HEIGHT ∧ col < BUFFER_WIDTH then some ((row * BUFFER_WIDTH + col) * 2) else none

namespace Writer

variable {ε : Type}

def store (offset : ℕ) (byte : UInt8) (w : Writer) : Writer :=
  { w with buffer := fun a => if a = offset then byte else w.buffer a }

def readCell (row col : ℕ) : Code Writer ε UInt8 := do
  let offset ← Code.orAbort (cellOffset row col)
  pure ((← Code.read).buffer offset)

def writeCell (row col : ℕ) (byte : UInt8) : Code Writer ε Unit := do
  let offset ← Code.orAbort (cellOffset row col)
  Code.modify (store offset byte)
  Code.modify (store (offset + 1) COLOR_BYTE)

def clearRow (row : ℕ) : Code Writer ε Unit :=
  forRange 0 BUFFER_WIDTH fun col => writeCell row col SPACE

def scrollUp : Code Writer ε Unit := do
  forRange 1 BUFFER_HEIGHT fun row =>
    forRange 0 BUFFER_WIDTH fun col => do
      let byte ← readCell row col
      writeCell (row - 1) col byte
  clearRow (BUFFER_HEIGHT - 1)

def newLine : Code Writer ε Unit := do
  Code.modify fun w => { w with columnPosition := 0 }
  let w ← Code.read
  if w.rowPosition + 1 < BUFFER_HEIGHT then
    Code.modify fun w => { w with rowPosition := w.rowPosition + 1 }
  else scrollUp

def putByte (byte : UInt8) : Code Writer ε Unit := do
  let w ← Code.read
  writeCell w.rowPosition w.columnPosition byte
  Code.modify fun w => { w with columnPosition := w.columnPosition + 1 }

def writeByte (byte : UInt8) : Code Writer ε Unit :=
  if byte = NEWLINE then newLine
  else do
    let w ← Code.read
    if w.columnPosition ≥ BUFFER_WIDTH then newLine
    putByte byte

def printable (byte : UInt8) : UInt8 :=
  if (0x20 ≤ byte ∧ byte ≤ 0x7e) ∨ byte = NEWLINE then byte else 0xfe

def writeString (s : List UInt8) : Code Writer ε Unit :=
  forEach s fun byte => writeByte (printable byte)

def cell (w : Writer) (row col : ℕ) : UInt8 := w.buffer ((row * BUFFER_WIDTH + col) * 2)

def put (row col : ℕ) (byte : UInt8) (w : Writer) : Writer :=
  store ((row * BUFFER_WIDTH + col) * 2 + 1) COLOR_BYTE (store ((row * BUFFER_WIDTH + col) * 2) byte w)

variable {w : Writer} {row col r c : ℕ} {byte : UInt8} {E : ε → Writer → Prop}

theorem cell_put (hc : c < BUFFER_WIDTH) (hcol : col < BUFFER_WIDTH) :
    (w.put row col byte).cell r c = if r = row ∧ c = col then byte else w.cell r c := by
  unfold BUFFER_WIDTH at hc hcol
  simp only [cell,put,store,BUFFER_WIDTH]
  rw [if_neg (by omega)]
  congr 1
  exact propext ⟨fun h => by omega,fun h => by rw [h.1,h.2]⟩

theorem spec_readCell (hrow : row < BUFFER_HEIGHT) (hcol : col < BUFFER_WIDTH)
    {Q : UInt8 → Writer → Prop} :
    Spec (readCell row col : Code Writer ε UInt8) w Q E ↔ Q (w.cell row col) w := by
  rw [readCell,cellOffset,if_pos ⟨hrow,hcol⟩]
  simp [cell]

theorem spec_writeCell (hrow : row < BUFFER_HEIGHT) (hcol : col < BUFFER_WIDTH)
    {Q : Unit → Writer → Prop} :
    Spec (writeCell row col byte : Code Writer ε Unit) w Q E ↔ Q () (w.put row col byte) := by
  rw [writeCell,cellOffset,if_pos ⟨hrow,hcol⟩]
  simp [put]

structure Shows (w : Writer) (screen : ℕ → ℕ → UInt8) (w' : Writer) : Prop where
  column : w'.columnPosition = w.columnPosition
  row : w'.rowPosition = w.rowPosition
  cell : ∀ r c, c < BUFFER_WIDTH → w'.cell r c = screen r c

theorem Shows.put {screen screen' : ℕ → ℕ → UInt8} {w' : Writer} (h : Shows w screen w')
    (hcol : col < BUFFER_WIDTH)
    (hscreen : ∀ r c, screen' r c = if r = row ∧ c = col then byte else screen r c) :
    Shows w screen' (w'.put row col byte) := by
  refine ⟨h.column,h.row,fun r c hc => ?_⟩
  rw [cell_put hc hcol,h.cell r c hc,hscreen]

theorem painted_succ (r row c n : ℕ) (paint : ℕ → UInt8) (old : UInt8) :
    (if r = row ∧ c < n + 1 then paint c else old) =
      if r = row ∧ c = n then paint n else if r = row ∧ c < n then paint c else old := by
  by_cases hc : c = n
  · subst hc
    by_cases hr : r = row
    · rw [if_pos ⟨hr,c.lt_succ_self⟩,if_pos ⟨hr,rfl⟩]
    · rw [if_neg fun h => hr h.1,if_neg fun h => hr h.1,if_neg fun h => hr h.1]
  · have hiff : (r = row ∧ c < n + 1) ↔ (r = row ∧ c < n) := and_congr_right fun _ => by omega
    have hnot : ¬(r = row ∧ c = n) := fun h => hc h.2
    rw [if_neg hnot]
    exact if_congr hiff rfl rfl

theorem clearRow_spec (hrow : row < BUFFER_HEIGHT) (w : Writer) :
    Spec (clearRow row : Code Writer ε Unit) w
      (fun _ w' => Shows w (fun r c => if r = row ∧ c < BUFFER_WIDTH then SPACE else w.cell r c) w') E := by
  refine spec_forRange (I := fun n w' =>
    Shows w (fun r c => if r = row ∧ c < n then SPACE else w.cell r c) w') (Nat.zero_le _) ?_ ?_
  · exact ⟨rfl,rfl,fun r c _ => by simp⟩
  · intro n w' _ hn h
    rw [spec_writeCell hrow hn]
    exact h.put hn fun r c => painted_succ r row c n (fun _ => SPACE) (w.cell r c)

theorem copyRow_spec (hrow : row < BUFFER_HEIGHT) (hpos : 0 < row) (w : Writer) :
    Spec (forRange 0 BUFFER_WIDTH fun col => do
        let byte ← readCell row col
        writeCell (row - 1) col byte : Code Writer ε Unit) w
      (fun _ w' => Shows w
        (fun r c => if r = row - 1 ∧ c < BUFFER_WIDTH then w.cell row c else w.cell r c) w') E := by
  refine spec_forRange (I := fun n w' => Shows w
    (fun r c => if r = row - 1 ∧ c < n then w.cell row c else w.cell r c) w') (Nat.zero_le _) ?_ ?_
  · exact ⟨rfl,rfl,fun r c _ => by simp⟩
  · intro n w' _ hn h
    rw [spec_bind,spec_readCell hrow hn,spec_writeCell (by omega) hn]
    have hsource : w'.cell row n = w.cell row n := by
      rw [h.cell row n hn,if_neg (by omega)]
    rw [hsource]
    exact h.put hn fun r c => painted_succ r (row - 1) c n (w.cell row) (w.cell r c)

theorem scrollUp_spec (w : Writer) :
    Spec (scrollUp : Code Writer ε Unit) w
      (fun _ w' => Shows w
        (fun r c => if r < BUFFER_HEIGHT - 1 then w.cell (r + 1) c
          else if r = BUFFER_HEIGHT - 1 then SPACE else w.cell r c) w') E := by
  rw [scrollUp,spec_bind]
  have hrows : Spec (forRange 1 BUFFER_HEIGHT fun row =>
      forRange 0 BUFFER_WIDTH fun col => do
        let byte ← readCell row col
        writeCell (row - 1) col byte : Code Writer ε Unit) w
      (fun _ w' => Shows w
        (fun r c => if r + 1 < BUFFER_HEIGHT then w.cell (r + 1) c else w.cell r c) w') E := by
    refine spec_forRange (I := fun n w' =>
      Shows w (fun r c => if r + 1 < n then w.cell (r + 1) c else w.cell r c) w') (by decide) ?_ ?_
    · exact ⟨rfl,rfl,fun r c _ => by simp⟩
    · intro n w' hpos hn h
      refine (copyRow_spec hn hpos w').imp fun _ w'' h' => ?_
      refine ⟨h'.column.trans h.column,h'.row.trans h.row,fun r c hc => ?_⟩
      have hsource : w'.cell n c = w.cell n c := by
        rw [h.cell n c hc,if_neg (by omega)]
      rw [h'.cell r c hc,hsource,h.cell r c hc]
      by_cases hr : r = n - 1
      · rw [if_pos ⟨hr,hc⟩,if_pos (by omega),show r + 1 = n by omega]
      · rw [if_neg fun h => hr h.1]
        simp only [show (r + 1 < n + 1) = (r + 1 < n) by rw [eq_iff_iff]; omega]
  refine hrows.imp fun _ w' h => ?_
  refine (clearRow_spec (by decide) w').imp fun _ w'' h' => ?_
  refine ⟨h'.column.trans h.column,h'.row.trans h.row,fun r c hc => ?_⟩
  rw [h'.cell r c hc,h.cell r c hc]
  by_cases hr : r = BUFFER_HEIGHT - 1
  · simp [hr,hc]
  · rw [if_neg fun h => hr h.1,if_neg hr]
    simp only [show (r + 1 < BUFFER_HEIGHT) = (r < BUFFER_HEIGHT - 1) by rw [eq_iff_iff]; omega]

end Writer

end VladOs
