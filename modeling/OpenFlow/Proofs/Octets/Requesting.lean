import OpenFlow.Proofs.Octets.Reading

set_option autoImplicit false

/-! # Requests for octets

The smallest decoders ask for a number of octets and make one value of them. `d.Requests n m f` says
of `d` all that there is to say: where `n` octets are to come, it answers `f` of them and passes
over `m`, which is all of them when it reads and none when it looks ahead; where fewer are to come,
it reports both numbers and stays. So what such a decoder comes to is known for every cursor, and
not only before octets that are known to be there. -/

namespace OpenFlow.Decoder

variable {α β : Type}

/-- `d` requests `n` octets, makes `f` of them, and passes over `m`. Where fewer than `n` are to
    come, it reports both numbers and stays. -/
structure Requests (d : Decoder α) (n m : Nat) (f : Octets → α) : Prop where
  enough : ∀ {c : Cursor}, n ≤ c.remaining → d.run c = (.ok (f (c.rest.take n)), c.advance m)
  short : ∀ {c : Cursor}, c.remaining < n → d.run c = (.error (.endOfInput n c.remaining), c)

variable {d : Decoder α} {n m : Nat} {f g : Octets → α}

theorem Requests.map (hd : d.Requests n m f) (g : α → β) :
    (d >>= fun a => pure (g a)).Requests n m fun bs => g (f bs) where
  enough h := by rw [run_bind_ok (hd.enough h), run_pure]
  short h := run_bind_error (hd.short h)

/-- Looking ahead fails as reading does, and passes over nothing. -/
theorem Requests.ahead (hd : d.Requests n m f) : (ahead d).Requests n 0 f where
  enough h := by rw [run_ahead, hd.enough h, Cursor.advance_zero]
  short h := by rw [run_ahead, hd.short h]

/-- It only matters what is made of `n` octets. -/
theorem Requests.congr (hd : d.Requests n m f) (hfg : ∀ bs : Octets, bs.length = n → f bs = g bs) :
    d.Requests n m g where
  enough h := by rw [hd.enough h, hfg _ (List.length_take_of_le h)]
  short := hd.short

/-! ## Octets and numbers -/

theorem requests_octets (n : Nat) : (octets n).Requests n n fun bs => bs where
  enough h := run_octets_of_le h
  short h := if_neg (Nat.not_le_of_gt h)

theorem requests_skip (n : Nat) : (skip n).Requests n n fun _ => () :=
  (requests_octets n).map fun _ => ()

theorem requests_word (width : Nat) : (word width).Requests width width Octets.toNat :=
  (requests_octets width).map Octets.toNat

theorem requests_u8 : u8.Requests 1 1 fun bs => UInt8.ofNat bs.toNat :=
  (requests_word 1).map UInt8.ofNat

theorem requests_u16 : u16.Requests 2 2 fun bs => UInt16.ofNat bs.toNat :=
  (requests_word 2).map UInt16.ofNat

theorem requests_u32 : u32.Requests 4 4 fun bs => UInt32.ofNat bs.toNat :=
  (requests_word 4).map UInt32.ofNat

theorem requests_u64 : u64.Requests 8 8 fun bs => UInt64.ofNat bs.toNat :=
  (requests_word 8).map UInt64.ofNat

/-- A number of a type that holds all numbers of its width is the number that the octets are. -/
theorem Requests.number {ofNat : Nat → α} {toNat : α → Nat}
    (hd : d.Requests n m fun bs => ofNat bs.toNat)
    (hto : ∀ k, k < Nat.pow 256 n → toNat (ofNat k) = k) (g : Nat → β) :
    (d >>= fun a => pure (g (toNat a))).Requests n m fun bs => g bs.toNat := by
  refine (hd.map fun a => g (toNat a)).congr fun bs hbs => ?_
  subst hbs
  rw [hto _ bs.toNat_lt]

end OpenFlow.Decoder
