set_option autoImplicit false

/-! # Numbers as octets, most significant first

Every number of the protocol travels in network order. `bigEndian w n` writes the low `w` octets
of `n`, and `Octets.toNat` reads a run of octets back as one number. The two are inverse up to the
width (`toNat_bigEndian`, `bigEndian_toNat`), and that is all the rest of the library needs to
know about byte order. Powers are written as `Nat.pow` here, so that they are the same terms whether
or not a module that states something of them knows about monoids. -/

namespace OpenFlow

/-- A run of octets. -/
abbrev Octets := List UInt8

/-- The low `width` octets of `n`, most significant first. -/
def bigEndian : (width n : Nat) → Octets
  | 0, _ => []
  | width + 1, n => UInt8.ofNat (n / Nat.pow 256 width) :: bigEndian width n

/-- A run of octets read as one number, continuing from what was read before it. -/
def Octets.toNatFrom (acc : Nat) : Octets → Nat
  | [] => acc
  | b :: bs => Octets.toNatFrom (acc * 256 + b.toNat) bs

/-- A run of octets read as one number, most significant first. -/
def Octets.toNat (bs : Octets) : Nat := Octets.toNatFrom 0 bs

/-- `n` octets of zero. -/
def zeros (n : Nat) : Octets := List.replicate n 0

/-! ## Reading and writing are inverse -/

@[simp] theorem length_bigEndian (width n : Nat) : (bigEndian width n).length = width := by
  induction width with
  | zero => rfl
  | succ width ih => simp [bigEndian, ih]

@[simp] theorem length_zeros (n : Nat) : (zeros n).length = n := by simp [zeros]

theorem pow_width_succ (width : Nat) : Nat.pow 256 (width + 1) = Nat.pow 256 width * 256 :=
  Nat.pow_succ 256 width

theorem Octets.toNatFrom_eq (acc : Nat) (bs : Octets) :
    Octets.toNatFrom acc bs = acc * Nat.pow 256 bs.length + Octets.toNatFrom 0 bs := by
  induction bs generalizing acc with
  | nil => simp [Octets.toNatFrom]
  | cons b bs ih =>
    rw [Octets.toNatFrom, ih, Octets.toNatFrom, ih (0 * 256 + b.toNat), List.length_cons,
      pow_width_succ, Nat.mul_comm (Nat.pow 256 bs.length) 256]
    simp only [Nat.add_mul, Nat.mul_assoc, Nat.zero_mul, Nat.zero_add, Nat.add_assoc]

theorem Octets.toNat_cons (b : UInt8) (bs : Octets) :
    Octets.toNat (b :: bs) = b.toNat * Nat.pow 256 bs.length + Octets.toNat bs := by
  simp only [Octets.toNat, Octets.toNatFrom, Nat.zero_mul, Nat.zero_add]
  exact Octets.toNatFrom_eq b.toNat bs

theorem Octets.toNat_lt (bs : Octets) : bs.toNat < Nat.pow 256 bs.length := by
  induction bs with
  | nil => simp [Octets.toNat, Octets.toNatFrom]
  | cons b bs ih =>
    rw [Octets.toNat_cons, List.length_cons, pow_width_succ]
    have := b.toNat_lt
    have : b.toNat * Nat.pow 256 bs.length ≤ 255 * Nat.pow 256 bs.length :=
      Nat.mul_le_mul_right _ (by omega)
    omega

/-- Reading back what was written keeps the low `width` octets of the number. -/
theorem toNat_bigEndian (width n : Nat) : (bigEndian width n).toNat = n % Nat.pow 256 width := by
  induction width with
  | zero => simp [bigEndian, Octets.toNat, Octets.toNatFrom, Nat.mod_one]
  | succ width ih =>
    have split : n % (Nat.pow 256 width * 256)
        = n % Nat.pow 256 width + Nat.pow 256 width * (n / Nat.pow 256 width % 256) :=
      Nat.mod_mul
    rw [pow_width_succ, split, bigEndian, Octets.toNat_cons, ih, length_bigEndian,
      UInt8.toNat_ofNat', Nat.mul_comm, Nat.add_comm]

/-- Writing back what was read gives the same octets. -/
theorem bigEndian_toNat (bs : Octets) : bigEndian bs.length bs.toNat = bs := by
  suffices h : ∀ k, bigEndian bs.length (k * Nat.pow 256 bs.length + bs.toNat) = bs by
    simpa using h 0
  induction bs with
  | nil => intro k; rfl
  | cons b bs ih =>
    intro k
    have hlt := Octets.toNat_lt bs
    have hpos : 0 < Nat.pow 256 bs.length := Nat.pow_pos (by decide)
    have hsum : k * Nat.pow 256 (bs.length + 1)
          + (b.toNat * Nat.pow 256 bs.length + Octets.toNat bs)
        = (k * 256 + b.toNat) * Nat.pow 256 bs.length + Octets.toNat bs := by
      rw [pow_width_succ, Nat.add_mul, Nat.mul_assoc, Nat.mul_comm 256]
      omega
    rw [Octets.toNat_cons, List.length_cons, bigEndian, hsum, ih]
    congr 1
    rw [Nat.mul_comm, Nat.mul_add_div hpos, Nat.div_eq_of_lt hlt]
    apply UInt8.toNat_inj.mp
    have := b.toNat_lt
    rw [UInt8.toNat_ofNat']
    omega

end OpenFlow
