import Mathlib.Data.List.Basic
import Mathlib.Tactic.Common
import Mathlib.Tactic.Ring

namespace LittleEndian

def decode : List UInt8 → ℕ
  | [] => 0
  | b :: bs => b.toNat + 256 * decode bs

def encode : ℕ → ℕ → List UInt8
  | 0, _ => []
  | n + 1, v => UInt8.ofNat v :: encode n (v / 256)

@[simp] theorem encode_length (n v : ℕ) : (encode n v).length = n := by
  induction n generalizing v with
  | zero => rfl
  | succ n ih => simp [encode,ih]

theorem decode_encode (n v : ℕ) : decode (encode n v) = v % 256 ^ n := by
  induction n generalizing v with
  | zero => simp [encode,decode,Nat.mod_one]
  | succ n ih =>
    have hp : 256 ^ (n + 1) = 256 * 256 ^ n := Nat.pow_succ'
    rw [hp,Nat.mod_mul,encode,decode,ih,UInt8.toNat_ofNat']

theorem decode_lt (bs : List UInt8) : decode bs < 256 ^ bs.length := by
  induction bs with
  | nil => simp [decode]
  | cons b bs ih =>
    have hb := b.toNat_lt
    simp only [decode,List.length_cons,Nat.pow_succ']
    omega

theorem map_getD_range (bs : List UInt8) :
    (List.range bs.length).map (fun j => bs.getD j 0) = bs := by
  apply List.ext_getElem
  · simp
  · intro i h₁ h₂
    simp [h₂]

end LittleEndian
