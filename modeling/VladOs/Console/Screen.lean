import VladOs.Console.Writer
import VladOs.Library.Wrapping

namespace VladOs

open Code Writer Wrapping

structure Displays (rows : List (List UInt8)) (w : Writer) : Prop where
  row : w.rowPosition = min (rows.length - 1) (BUFFER_HEIGHT - 1)
  column : ∀ {last}, rows.getLast? = some last → w.columnPosition = last.length
  fits : ∀ {cells}, cells ∈ rows → cells.length ≤ BUFFER_WIDTH
  shows : ∀ {r c cells byte}, rows[rows.length - BUFFER_HEIGHT + r]? = some cells →
    cells[c]? = some byte → w.cell r c = byte
  blank : ∀ {r c cells}, rows[rows.length - BUFFER_HEIGHT + r]? = some cells →
    BUFFER_HEIGHT ≤ rows.length - BUFFER_HEIGHT + r → cells.length ≤ c → c < BUFFER_WIDTH →
    w.cell r c = SPACE

section

variable {ε : Type} {E : ε → Writer → Prop} {rows before : List (List UInt8)} {last : List UInt8}
  {w : Writer} {byte : UInt8}

theorem Displays.start (buffer : ℕ → UInt8) : Displays [[]] ⟨0,0,buffer⟩ := by
  have hline : ∀ {r cells}, ([[]] : List (List UInt8))[1 - BUFFER_HEIGHT + r]? = some cells → cells = [] := by
    intro r cells h
    exact List.mem_singleton.mp (List.mem_of_getElem? h)
  refine ⟨rfl,?_,?_,?_,?_⟩
  · rintro _ ⟨⟩
    rfl
  · intro cells hline
    rw [List.mem_singleton.mp hline]
    exact Nat.zero_le _
  · intro r c cells b h hb
    rw [hline h] at hb
    cases hb
  · intro r c cells h hge
    obtain ⟨hlt,-⟩ := List.getElem?_eq_some_iff.mp h
    simp only [List.length_singleton] at hge hlt
    omega

theorem Displays.advance (h : Displays rows w) (hne : rows ≠ []) (hroom : rows.length < BUFFER_HEIGHT) :
    Displays (rows ++ [[]]) { w with columnPosition := 0, rowPosition := w.rowPosition + 1 } := by
  have hpos := List.length_pos_iff.mpr hne
  have hrow := h.row
  have hlen : (rows ++ [[]]).length = rows.length + 1 := List.length_append
  have hfirst : ∀ {r cells}, (rows ++ [[]])[(rows ++ [[]]).length - BUFFER_HEIGHT + r]? = some cells →
      rows[rows.length - BUFFER_HEIGHT + r]? = some cells ∨ cells = [] := by
    intro r cells hr
    rw [hlen,show rows.length + 1 - BUFFER_HEIGHT + r = rows.length - BUFFER_HEIGHT + r by omega] at hr
    exact (getElem?_snoc hr).imp And.left And.right
  refine ⟨?_,?_,?_,?_,?_⟩
  · rw [hlen]
    simp only
    omega
  · intro last hlast
    rw [List.getLast?_concat] at hlast
    cases hlast
    rfl
  · intro cells hline
    rcases List.mem_append.mp hline with hold | hnew
    · exact h.fits hold
    · rw [List.mem_singleton.mp hnew]
      exact Nat.zero_le _
  · intro r c cells b hr hb
    rcases hfirst hr with hold | rfl
    · exact h.shows hold hb
    · cases hb
  · intro r c cells hr hge
    have hlt := (List.getElem?_eq_some_iff.mp hr).1
    omega

theorem Displays.scroll (h : Displays rows w) (hfull : BUFFER_HEIGHT ≤ rows.length) {w' : Writer}
    (hw : Shows { w with columnPosition := 0 }
      (fun r c => if r < BUFFER_HEIGHT - 1 then w.cell (r + 1) c
        else if r = BUFFER_HEIGHT - 1 then SPACE else w.cell r c) w') :
    Displays (rows ++ [[]]) w' := by
  have hrow := h.row
  have hlen : (rows ++ [[]]).length = rows.length + 1 := List.length_append
  have hline : ∀ {r cells}, (rows ++ [[]])[(rows ++ [[]]).length - BUFFER_HEIGHT + r]? = some cells →
      (r < BUFFER_HEIGHT - 1 ∧ rows[rows.length - BUFFER_HEIGHT + (r + 1)]? = some cells) ∨
        (r = BUFFER_HEIGHT - 1 ∧ cells = []) := by
    intro r cells hr
    rw [hlen,show rows.length + 1 - BUFFER_HEIGHT + r = rows.length - BUFFER_HEIGHT + (r + 1) by omega] at hr
    rcases getElem?_snoc hr with ⟨hold,hlt⟩ | ⟨heq,hnew⟩
    · exact Or.inl ⟨by omega,hold⟩
    · exact Or.inr ⟨by omega,hnew⟩
  refine ⟨?_,?_,?_,?_,?_⟩
  · rw [hw.row,hlen]
    simp only
    omega
  · intro last hlast
    rw [List.getLast?_concat] at hlast
    cases hlast
    exact hw.column
  · intro cells hmem
    rcases List.mem_append.mp hmem with hold | hnew
    · exact h.fits hold
    · rw [List.mem_singleton.mp hnew]
      exact Nat.zero_le _
  · intro r c cells b hr hb
    rcases hline hr with ⟨hlt,hold⟩ | ⟨-,rfl⟩
    · have hc : c < cells.length := (List.getElem?_eq_some_iff.mp hb).1
      rw [hw.cell r c (hc.trans_le (h.fits (List.mem_of_getElem? hold))),if_pos hlt]
      exact h.shows hold hb
    · cases hb
  · intro r c cells hr hge hshort hc
    rw [hw.cell r c hc]
    rcases hline hr with ⟨hlt,hold⟩ | ⟨rfl,-⟩
    · rw [if_pos hlt]
      exact h.blank hold (by omega) hshort hc
    · rw [if_neg (Nat.lt_irrefl _),if_pos rfl]

theorem newLine_spec (h : Displays rows w) (hne : rows ≠ []) :
    Spec (newLine : Code Writer ε Unit) w (fun _ w' => Displays (rows ++ [[]]) w') E := by
  have hrow := h.row
  have hpos := List.length_pos_iff.mpr hne
  rw [newLine,spec_bind,spec_modify,spec_bind,spec_read,spec_ite]
  refine ⟨fun hroom => ?_,fun hfull => ?_⟩
  · rw [spec_modify]
    exact h.advance hne (by simp only at hroom; omega)
  · simp only at hfull
    exact (scrollUp_spec _).imp fun _ w' hw => h.scroll (by omega) hw

theorem Displays.put (h : Displays (before ++ [last]) w) (hroom : last.length < BUFFER_WIDTH) :
    Displays (before ++ [last ++ [byte]])
      { w.put w.rowPosition w.columnPosition byte with columnPosition := w.columnPosition + 1 } := by
  have hcolumn : w.columnPosition = last.length := h.column List.getLast?_concat
  have hrow := h.row
  have hlen : (before ++ [last ++ [byte]]).length = before.length + 1 := List.length_append
  have hold : (before ++ [last]).length = before.length + 1 := List.length_append
  have hline : ∀ {r cells}, (before ++ [last ++ [byte]])[before.length + 1 - BUFFER_HEIGHT + r]? = some cells →
      ((before ++ [last])[before.length + 1 - BUFFER_HEIGHT + r]? = some cells ∧ r ≠ w.rowPosition) ∨
        (r = w.rowPosition ∧ cells = last ++ [byte] ∧
          (before ++ [last])[before.length + 1 - BUFFER_HEIGHT + r]? = some last) := by
    intro r cells hr
    rw [hold] at hrow
    rcases getElem?_snoc hr with ⟨hbefore,hlt⟩ | ⟨heq,hnew⟩
    · exact Or.inl ⟨by rw [List.getElem?_append_left hlt]; exact hbefore,by omega⟩
    · exact Or.inr ⟨by omega,hnew,by rw [heq,List.getElem?_concat_length]⟩
  have hcell : ∀ r c, c < BUFFER_WIDTH → Writer.cell
      { w.put w.rowPosition w.columnPosition byte with columnPosition := w.columnPosition + 1 } r c =
        if r = w.rowPosition ∧ c = last.length then byte else w.cell r c := by
    intro r c hc
    rw [← hcolumn]
    exact cell_put hc (by omega)
  refine ⟨?_,?_,?_,?_,?_⟩
  · rw [hlen,← hold]
    exact hrow
  · intro cells hlast
    rw [List.getLast?_concat] at hlast
    cases hlast
    rw [List.length_append,← hcolumn]
    rfl
  · intro cells hmem
    rcases List.mem_append.mp hmem with hbefore | hnew
    · exact h.fits (List.mem_append_left _ hbefore)
    · rw [List.mem_singleton.mp hnew,List.length_append]
      exact hroom
  · intro r c cells b hr hb
    rw [hlen] at hr
    rcases hline hr with ⟨hsame,hne⟩ | ⟨rfl,rfl,hthis⟩
    · have hc : c < cells.length := (List.getElem?_eq_some_iff.mp hb).1
      rw [hcell r c (hc.trans_le (h.fits (List.mem_of_getElem? hsame))),if_neg fun hrc => hne hrc.1]
      exact h.shows (by rw [hold]; exact hsame) hb
    · rcases getElem?_snoc hb with ⟨hlast,hc⟩ | ⟨rfl,rfl⟩
      · rw [hcell _ c (by omega),if_neg fun hrc => hc.ne hrc.2]
        exact h.shows (by rw [hold]; exact hthis) hlast
      · rw [hcell _ _ hroom,if_pos ⟨rfl,rfl⟩]
  · intro r c cells hr hge hshort hc
    rw [hlen] at hr hge
    rw [hcell r c hc]
    rcases hline hr with ⟨hsame,hne⟩ | ⟨rfl,rfl,hthis⟩
    · rw [if_neg fun hrc => hne hrc.1]
      exact h.blank (by rw [hold]; exact hsame) (by rw [hold]; exact hge) hshort hc
    · rw [List.length_append,List.length_singleton] at hshort
      rw [if_neg (by omega)]
      exact h.blank (by rw [hold]; exact hthis) (by rw [hold]; exact hge) (by omega) hc

theorem putByte_spec (h : Displays (before ++ [last]) w) (hroom : last.length < BUFFER_WIDTH) (byte : UInt8) :
    Spec (putByte byte : Code Writer ε Unit) w
      (fun _ w' => Displays (before ++ [last ++ [byte]]) w') E := by
  have hcolumn : w.columnPosition = last.length := h.column List.getLast?_concat
  have hrow : w.rowPosition < BUFFER_HEIGHT := by
    rw [h.row]
    exact Nat.lt_of_le_of_lt (Nat.min_le_right ..) (by decide)
  rw [putByte,spec_bind,spec_read,spec_bind,spec_writeCell hrow (by omega),spec_modify]
  exact h.put hroom

theorem writeByte_spec (h : Displays (before ++ [last]) w) (hbyte : byte ≠ NEWLINE) :
    Spec (writeByte byte : Code Writer ε Unit) w
      (fun _ w' => Displays (if last.length = BUFFER_WIDTH then before ++ [last,[byte]]
        else before ++ [last ++ [byte]]) w') E := by
  have hcolumn : w.columnPosition = last.length := h.column List.getLast?_concat
  have hle : last.length ≤ BUFFER_WIDTH := h.fits (List.mem_append_right _ List.mem_cons_self)
  rw [writeByte,if_neg hbyte,spec_bind,spec_read]
  change Spec (if w.columnPosition ≥ BUFFER_WIDTH then newLine >>= fun _ => putByte byte
    else putByte byte) w _ E
  rw [spec_ite]
  refine ⟨fun hfull => ?_,fun hroom => ?_⟩
  · rw [if_pos (by omega),spec_bind]
    refine (newLine_spec h (by simp)).imp fun _ w' h' => ?_
    refine (putByte_spec h' (by decide) byte).imp fun _ w'' h'' => ?_
    rwa [List.append_assoc] at h''
  · rw [if_neg (by omega)]
    exact putByte_spec h (by omega) byte

theorem Displays.writeByte {text : List UInt8} (h : Displays (Wrapping.rows NEWLINE BUFFER_WIDTH text) w)
    (byte : UInt8) : Spec (Writer.writeByte byte : Code Writer ε Unit) w
      (fun _ w' => Displays (Wrapping.rows NEWLINE BUFFER_WIDTH (text ++ [byte])) w') E := by
  by_cases hbyte : byte = NEWLINE
  · rw [Writer.writeByte,if_pos hbyte,hbyte,rows_snoc_separator]
    exact newLine_spec h (rows_ne_nil text)
  · obtain ⟨before,last,hold,-,hnew⟩ := rows_snoc (by decide : 0 < BUFFER_WIDTH) hbyte text
    rw [hold] at h
    rw [hnew]
    exact writeByte_spec h hbyte

end

def textRows (text : List UInt8) : List (List UInt8) := rows NEWLINE BUFFER_WIDTH (text.map printable)

def lastRow (text : List UInt8) : ℕ := (textRows text).length - 1

def firstShown (text : List UInt8) : ℕ := lastRow text - (BUFFER_HEIGHT - 1)

structure ScreenShows (text : List UInt8) (w : Writer) : Prop where
  characters : ∀ {r c cells byte}, r < BUFFER_HEIGHT → (textRows text)[firstShown text + r]? = some cells →
    cells[c]? = some byte → w.cell r c = byte
  spaces : ∀ {r c cells}, r < BUFFER_HEIGHT → (textRows text)[firstShown text + r]? = some cells →
    BUFFER_HEIGHT ≤ firstShown text + r → cells.length ≤ c → c < BUFFER_WIDTH → w.cell r c = SPACE

section

variable {w : Writer} {text : List UInt8} {ε : Type} {E : ε → Writer → Prop}

theorem Displays.screen (h : Displays (textRows text) w) : ScreenShows text w := by
  have hfirst : firstShown text = (textRows text).length - BUFFER_HEIGHT := by
    unfold firstShown lastRow BUFFER_HEIGHT
    omega
  refine ⟨?_,?_⟩
  · intro r c cells byte _ hline hbyte
    rw [hfirst] at hline
    exact h.shows hline hbyte
  · intro r c cells _ hline hindex hshort hc
    rw [hfirst] at hline hindex
    exact h.blank hline hindex hshort hc

theorem writeString_spec (h : Displays (textRows text) w) (string : List UInt8) :
    Spec (writeString string : Code Writer ε Unit) w
      (fun _ w' => Displays (textRows (text ++ string)) w') E := by
  refine spec_forEach (I := fun written w' => Displays (textRows written) w') h ?_
  intro written byte w' _ h'
  rw [textRows,List.map_append]
  exact h'.writeByte (printable byte)

end

theorem screen_shows_text (strings : List (List UInt8)) (buffer : ℕ → UInt8) :
    ∃ w, (forEach strings writeString : Code Writer Empty Unit) ⟨0,0,buffer⟩ = .ok () w ∧
      ScreenShows strings.flatten w := by
  have hstart : Displays (textRows ([] : List (List UInt8)).flatten) ⟨0,0,buffer⟩ := by
    rw [textRows,List.flatten_nil,List.map_nil,rows_nil]
    exact Displays.start buffer
  have hrun : Spec (forEach strings writeString : Code Writer Empty Unit) ⟨0,0,buffer⟩
      (fun _ w => Displays (textRows strings.flatten) w) fun e _ => e.elim := by
    refine spec_forEach (I := fun written w => Displays (textRows written.flatten) w) hstart ?_
    intro written string w _ h
    rw [List.flatten_append,List.flatten_singleton]
    exact writeString_spec h string
  obtain ⟨_,w,hw,hdisplays⟩ := hrun.returns fun e _ _ => e.elim
  exact ⟨w,hw,hdisplays.screen⟩

end VladOs
