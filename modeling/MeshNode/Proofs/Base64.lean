import Mathlib.Tactic.SplitIfs
import MeshNode.Bytes.Base64
import MeshNode.Proofs.Text

/-!
# Wire texts are decoded as they were encoded

The symbols of the wire dialect stand for different numbers and none of them is the padding, so
quantum by quantum, the last one included, decoding undoes encoding. A wire text has no padding; it
is as long as four symbols for every three bytes, with what is left over taking one symbol more than
it has bytes. With as much of the padding as completes its last quantum, or less, it is decoded all
the same.

Nothing else is decoded: what is decoded to some bytes is the text of these bytes with some of that
padding. So a text that is decoded fits into a number of quanta exactly if its bytes do, padding or
not, and texts without padding stand for different bytes (`decode_exact`).
-/

namespace MeshNode.Base64

/-- A symbol stands for the number that it was made from. -/
theorem value?_symbol {n : Nat} (hn : n < 64) :
    Dialect.wire.value? (Dialect.wire.symbol n) = some n := by
  have hall : ∀ m : Fin 64, Dialect.wire.value? (Dialect.wire.symbol m) = some m.val := by decide
  exact hall ⟨n, hn⟩

/-- Symbols are of ASCII, and none is the padding. -/
theorem symbol_lt_and_ne {n : Nat} (hn : n < 64) :
    Dialect.wire.symbol n < 128 ∧ Dialect.wire.symbol n ≠ pad := by
  have hall : ∀ m : Fin 64, Dialect.wire.symbol m < 128 ∧ Dialect.wire.symbol m ≠ pad := by decide
  exact hall ⟨n, hn⟩

theorem value_symbol (offset : Nat) {n : Nat} (hn : n < 64) :
    value Dialect.wire offset (Dialect.wire.symbol n) = .ok n := by
  rw [value, value?_symbol hn]

/-- Every symbol of a written text is one of a number below 64. -/
theorem exists_of_mem_symbols {b : Bytes} {c : UInt8} (hc : c ∈ symbols Dialect.wire b) :
    ∃ n, n < 64 ∧ c = Dialect.wire.symbol n := by
  fun_induction symbols Dialect.wire b with
  | case1 x y z rest ih =>
    have hx := x.toNat_lt
    have hy := y.toNat_lt
    have hz := z.toNat_lt
    simp only [List.mem_cons] at hc
    rcases hc with rfl | rfl | rfl | rfl | hc
    · exact ⟨_, by omega, rfl⟩
    · exact ⟨_, by omega, rfl⟩
    · exact ⟨_, by omega, rfl⟩
    · exact ⟨_, by omega, rfl⟩
    · exact ih hc
  | case2 x y =>
    have hx := x.toNat_lt
    have hy := y.toNat_lt
    simp only [List.mem_cons, List.not_mem_nil, or_false] at hc
    rcases hc with rfl | rfl | rfl <;> exact ⟨_, by omega, rfl⟩
  | case3 x =>
    have hx := x.toNat_lt
    simp only [List.mem_cons, List.not_mem_nil, or_false] at hc
    rcases hc with rfl | rfl <;> exact ⟨_, by omega, rfl⟩
  | case4 => cases hc

/-- Symbols of numbers below 64 are split from the padding after them, which does not start before
two symbols. -/
theorem splitPadding_symbols (ns : List Nat) (hns : ∀ n ∈ ns, n < 64) (offset index : Nat) {k : Nat}
    (hk : k = 0 ∨ 2 ≤ index + ns.length) :
    splitPadding Dialect.wire offset index
      (ns.map Dialect.wire.symbol ++ List.replicate k pad) = .ok (ns, k) := by
  induction ns generalizing index with
  | nil =>
    cases k with
    | zero => rfl
    | succ k =>
      have hindex : ¬ index < 2 := Nat.not_lt.mpr (hk.resolve_left (Nat.succ_ne_zero k))
      have hall : (List.replicate k pad).all (· = pad) = true := by simp
      rw [List.map_nil, List.nil_append, List.replicate_succ, splitPadding, if_pos rfl,
        if_neg hindex, if_pos hall, List.length_replicate]
  | cons n ns ih =>
    have hn : n < 64 := hns n List.mem_cons_self
    have hrest := ih (fun m hm => hns m (List.mem_cons_of_mem n hm)) (index + 1)
      (hk.imp_right fun hlength => by
        rw [List.length_cons] at hlength
        omega)
    rw [List.map_cons, List.cons_append, splitPadding, if_neg (symbol_lt_and_ne hn).2,
      value_symbol _ hn]
    simp only [bind, Except.bind, hrest]
    rfl

/-- The bytes of the numbers that three bytes were cut into. -/
theorem quantum_cut (x y z : UInt8) :
    quantum (x.toNat / 4) (x.toNat % 4 * 16 + y.toNat / 16) (y.toNat % 16 * 4 + z.toNat / 64)
      (z.toNat % 64) = [x, y, z] := by
  have hx := x.toNat_lt
  have hy := y.toNat_lt
  have hz := z.toNat_lt
  have hfirst : x.toNat / 4 * 4 + (x.toNat % 4 * 16 + y.toNat / 16) / 16 = x.toNat := by omega
  have hsecond : (x.toNat % 4 * 16 + y.toNat / 16) % 16 * 16 +
      (y.toNat % 16 * 4 + z.toNat / 64) / 4 = y.toNat := by omega
  have hthird : (y.toNat % 16 * 4 + z.toNat / 64) % 4 * 64 + z.toNat % 64 = z.toNat := by omega
  simp only [quantum, hfirst, hsecond, hthird, UInt8.ofNat_toNat]

/-- The last quantum of a written text is decoded, with as much of its padding as there is. -/
theorem lastQuantum_symbols {b : Bytes} (hb : b.length ≤ 3) {k : Nat} (hk : k ≤ padWidth b.length)
    (offset : Nat) :
    lastQuantum Dialect.wire offset (symbols Dialect.wire b ++ List.replicate k pad) = .ok b := by
  have hpadding : Dialect.wire.padding ≠ .canonical := by decide
  match b with
  | [] =>
    obtain rfl : k = 0 := Nat.le_zero.mp hk
    rfl
  | [x] =>
    have hx := x.toNat_lt
    -- Missing bytes count as zeros, and the bits they leave unused have to be zeros.
    have hquantum : quantum (x.toNat / 4) (x.toNat % 4 * 16) 0 0 = [x, 0, 0] := quantum_cut x 0 0
    have hunused : x.toNat % 4 * 16 % 16 = 0 := by omega
    have hsplit := splitPadding_symbols [x.toNat / 4, x.toNat % 4 * 16]
      (by simp; omega) offset 0 (k := k) (Or.inr (by simp))
    simp only [List.map_cons, List.map_nil, List.cons_append, List.nil_append] at hsplit
    simp [lastQuantum, symbols, hsplit, bind, Except.bind, hpadding, hunused, hquantum]
  | [x, y] =>
    have hx := x.toNat_lt
    have hy := y.toNat_lt
    have hquantum : quantum (x.toNat / 4) (x.toNat % 4 * 16 + y.toNat / 16) (y.toNat % 16 * 4) 0 =
        [x, y, 0] := quantum_cut x y 0
    have hunused : y.toNat % 16 * 4 % 4 = 0 := by omega
    have hsplit := splitPadding_symbols
      [x.toNat / 4, x.toNat % 4 * 16 + y.toNat / 16, y.toNat % 16 * 4]
      (by simp; omega) offset 0 (k := k) (Or.inr (by simp))
    simp only [List.map_cons, List.map_nil, List.cons_append, List.nil_append] at hsplit
    simp [lastQuantum, symbols, hsplit, bind, Except.bind, hpadding, hunused, hquantum]
  | [x, y, z] =>
    have hx := x.toNat_lt
    have hy := y.toNat_lt
    have hz := z.toNat_lt
    have hsplit := splitPadding_symbols
      [x.toNat / 4, x.toNat % 4 * 16 + y.toNat / 16, y.toNat % 16 * 4 + z.toNat / 64,
        z.toNat % 64] (by simp; omega) offset 0 (k := k) (Or.inr (by simp))
    simp only [List.map_cons, List.map_nil, List.cons_append, List.nil_append] at hsplit
    simp [lastQuantum, symbols, hsplit, bind, Except.bind, hpadding, quantum_cut]

/-- No more than four symbols are all the last quantum. -/
theorem quanta_of_length_le {q : Bytes} (hq : q.length ≤ 4) (offset : Nat) :
    quanta Dialect.wire offset q = lastQuantum Dialect.wire offset q := by
  match q with
  | [] | [_] | [_, _] | [_, _, _] | [_, _, _, _] => rfl
  | _ :: _ :: _ :: _ :: _ :: rest =>
    simp only [List.length_cons] at hq
    omega

/-- **Decoding undoes encoding**, quantum by quantum, padding or not. -/
theorem quanta_symbols (b : Bytes) {k : Nat} (hk : k ≤ padWidth b.length) (offset : Nat) :
    quanta Dialect.wire offset (symbols Dialect.wire b ++ List.replicate k pad) = .ok b := by
  fun_induction symbols Dialect.wire b generalizing offset with
  | case1 x y z rest ih =>
    have hk' : k ≤ padWidth rest.length := by
      simp only [padWidth, List.length_cons] at hk ⊢
      omega
    -- Four symbols with none after them are the last quantum, which is decoded in its own way.
    cases hrest : symbols Dialect.wire rest ++ List.replicate k pad with
    | nil =>
      obtain ⟨hsymbols, hpads⟩ := List.append_eq_nil_iff.mp hrest
      have hnil : rest = [] := by
        have hdecoded := ih hk' 0
        rw [hrest] at hdecoded
        exact (Except.ok.inj hdecoded).symm
      subst hnil
      obtain rfl : k = 0 := by simpa using hpads
      exact lastQuantum_symbols (b := [x, y, z]) (Nat.le_refl 3) (Nat.zero_le _) offset
    | cons f fs =>
      have hx := x.toNat_lt
      have hy := y.toNat_lt
      have hz := z.toNat_lt
      have htail := ih hk' (offset + 4)
      rw [hrest] at htail
      have hfirst := value_symbol offset (n := x.toNat / 4) (by omega)
      have hsecond := value_symbol (offset + 1) (n := x.toNat % 4 * 16 + y.toNat / 16) (by omega)
      have hthird := value_symbol (offset + 2) (n := y.toNat % 16 * 4 + z.toNat / 64) (by omega)
      have hfourth := value_symbol (offset + 3) (n := z.toNat % 64) (by omega)
      simp only [List.cons_append, hrest]
      rw [quanta]
      simp only [hfirst, hsecond, hthird, hfourth, htail, bind, Except.bind, quantum_cut]
      rfl
  | case2 x y =>
    rw [quanta_of_length_le (by simp [padWidth] at hk ⊢; omega)]
    exact lastQuantum_symbols (b := [x, y]) (by simp) hk offset
  | case3 x =>
    rw [quanta_of_length_le (by simp [padWidth] at hk ⊢; omega)]
    exact lastQuantum_symbols (b := [x]) (by simp) hk offset
  | case4 =>
    obtain rfl : k = 0 := Nat.le_zero.mp hk
    rfl

/-- A wire text has its symbols for bytes. -/
@[simp] theorem ofText_encode (b : Bytes) : Bytes.ofText (encode b) = symbols Dialect.wire b := by
  refine Bytes.ofText_map_ofNat fun c hc => ?_
  obtain ⟨n, hn, rfl⟩ := exists_of_mem_symbols hc
  exact (symbol_lt_and_ne hn).1

/-- A wire text with padding has its symbols and the padding for bytes. -/
theorem ofText_encode_append (b : Bytes) (k : Nat) :
    Bytes.ofText (encode b ++ String.ofList (List.replicate k '=')) =
      symbols Dialect.wire b ++ List.replicate k pad := by
  have hascii : ∀ c ∈ List.replicate k pad, c < 128 := fun c hc =>
    List.eq_of_mem_replicate hc ▸ by decide
  have hpad := Bytes.ofText_map_ofNat hascii
  rw [List.map_replicate] at hpad
  have hchar : Char.ofNat pad.toNat = '=' := rfl
  rw [Bytes.ofText_append, ofText_encode, ← hchar, hpad]

/-- A wire text is decoded to the bytes that were encoded, with as much padding as there is. -/
theorem decode_encode_append (b : Bytes) {k : Nat} (hk : k ≤ padWidth b.length) :
    decode (encode b ++ String.ofList (List.replicate k '=')) = .ok b := by
  have hquanta := quanta_symbols b hk 0
  rw [decode, ofText_encode_append, Dialect.decode]
  split
  · rename_i c hlast
    rw [if_neg, hquanta]
    rintro ⟨-, hpad, hvalue⟩
    rcases List.mem_append.mp (List.mem_of_getLast? hlast) with hc | hc
    · obtain ⟨n, hn, rfl⟩ := exists_of_mem_symbols hc
      rw [value?_symbol hn] at hvalue
      exact Option.some_ne_none n hvalue
    · exact hpad (List.eq_of_mem_replicate hc)
  · rename_i hlast
    rw [List.getLast?_eq_none_iff.mp hlast] at hquanta
    exact hquanta

/-- **A wire text is decoded to the bytes that were encoded.** -/
@[simp] theorem decode_encode (b : Bytes) : decode (encode b) = .ok b := by
  have hdecode := decode_encode_append b (Nat.zero_le _)
  rwa [List.replicate_zero, String.ofList_nil, String.append_empty] at hdecode

@[simp] theorem decodeExactly?_encode {n : Nat} {b : Bytes} (hb : b.length = n) :
    decodeExactly? n (encode b) = some b := by
  simp [decodeExactly?, hb]

/-- How many symbols there are for a byte string. -/
theorem length_symbols (b : Bytes) :
    (symbols Dialect.wire b).length = (4 * b.length + 2) / 3 := by
  fun_induction symbols Dialect.wire b with
  | case1 x y z rest ih =>
    simp only [List.length_cons, ih]
    omega
  | case2 | case3 | case4 => simp

/-! ### What is decoded -/

/-- The symbol of the number that a symbol stands for is that symbol. -/
theorem symbol_of_value? {c : UInt8} {n : Nat} (h : Dialect.wire.value? c = some n) :
    n < 64 ∧ Dialect.wire.symbol n = c := by
  have hall : ∀ m : Fin 256, ∀ n ∈ Dialect.wire.value? (UInt8.ofNat m),
      n < 64 ∧ Dialect.wire.symbol n = UInt8.ofNat m := by decide +kernel
  have hc := hall ⟨c.toNat, c.toNat_lt⟩ n
  rw [UInt8.ofNat_toNat] at hc
  exact hc h

theorem symbol_of_value {offset : Nat} {c : UInt8} {n : Nat}
    (h : value Dialect.wire offset c = .ok n) : n < 64 ∧ Dialect.wire.symbol n = c := by
  unfold value at h
  split at h
  · rename_i hn
    exact Except.ok.inj h ▸ symbol_of_value? hn
  · cases h

/-- What is split into numbers and padding are their symbols and the padding, which does not start
before two symbols. -/
theorem eq_of_splitPadding {q : Bytes} {offset index : Nat} {ns : List Nat} {pads : Nat}
    (h : splitPadding Dialect.wire offset index q = .ok (ns, pads)) :
    q = ns.map Dialect.wire.symbol ++ List.replicate pads pad ∧ (∀ n ∈ ns, n < 64) ∧
      (pads = 0 ∨ 2 ≤ index + ns.length) := by
  induction q generalizing index ns with
  | nil =>
    cases h
    exact ⟨rfl, fun _ hn => absurd hn List.not_mem_nil, Or.inl rfl⟩
  | cons c rest ih =>
    rw [splitPadding] at h
    split_ifs at h with hpad hindex hrest
    · -- Only padding is left.
      cases h
      have hreplicate : rest = List.replicate rest.length pad :=
        List.eq_replicate_iff.mpr
          ⟨rfl, fun b hb => of_decide_eq_true (List.all_eq_true.mp hrest b hb)⟩
      have htwo : 2 ≤ index + ([] : List Nat).length := Nat.not_lt.mp hindex
      refine ⟨?_, fun _ hn => absurd hn List.not_mem_nil, Or.inr htwo⟩
      rw [List.map_nil, List.nil_append, List.replicate_succ, ← hreplicate, hpad]
    · cases hvalue : value Dialect.wire (offset + index) c with
      | error e => simp [hvalue, bind, Except.bind] at h
      | ok n =>
        cases hsplit : splitPadding Dialect.wire offset (index + 1) rest with
        | error e => simp [hvalue, hsplit, bind, Except.bind] at h
        | ok r =>
          obtain ⟨ns', pads'⟩ := r
          simp only [hvalue, hsplit, bind, Except.bind, pure, Except.pure] at h
          cases h
          obtain ⟨hn, hsymbol⟩ := symbol_of_value hvalue
          obtain ⟨heq, hns, hpads⟩ := ih hsplit
          refine ⟨by rw [List.map_cons, hsymbol, List.cons_append, ← heq],
            List.forall_mem_cons.mpr ⟨hn, hns⟩, hpads.imp_right ?_⟩
          rw [List.length_cons]
          omega

/-- The bytes of four numbers are cut into these numbers. -/
theorem exists_quantum_eq {p q r s : Nat} (hp : p < 64) (hq : q < 64) (hr : r < 64)
    (hs : s < 64) :
    ∃ x y z : UInt8, quantum p q r s = [x, y, z] ∧ x.toNat / 4 = p ∧
      x.toNat % 4 * 16 + y.toNat / 16 = q ∧ y.toNat % 16 * 4 + z.toNat / 64 = r ∧
      z.toNat % 64 = s := by
  have hx : (UInt8.ofNat (p * 4 + q / 16)).toNat = p * 4 + q / 16 :=
    UInt8.toNat_ofNat_of_lt' (by show _ < 256; omega)
  have hy : (UInt8.ofNat (q % 16 * 16 + r / 4)).toNat = q % 16 * 16 + r / 4 :=
    UInt8.toNat_ofNat_of_lt' (by show _ < 256; omega)
  have hz : (UInt8.ofNat (r % 4 * 64 + s)).toNat = r % 4 * 64 + s :=
    UInt8.toNat_ofNat_of_lt' (by show _ < 256; omega)
  refine ⟨_, _, _, rfl, ?_⟩
  rw [hx, hy, hz]
  omega

/-- The last quantum is that of the bytes that it is decoded to, with at most the canonical
padding. -/
theorem eq_of_lastQuantum {s b : Bytes} {offset : Nat} (hs : s.length ≤ 4)
    (h : lastQuantum Dialect.wire offset s = .ok b) :
    ∃ k ≤ padWidth b.length, s = symbols Dialect.wire b ++ List.replicate k pad := by
  have hpadding : Dialect.wire.padding ≠ .canonical := by decide
  cases hsplit : splitPadding Dialect.wire offset 0 s with
  | error e => simp [lastQuantum, hsplit, bind, Except.bind] at h
  | ok r =>
    obtain ⟨ns, pads⟩ := r
    obtain ⟨heq, hns, hpads⟩ := eq_of_splitPadding hsplit
    have hlength : ns.length + pads ≤ 4 := by simpa [heq] using hs
    simp only [lastQuantum, hsplit, bind, Except.bind, hpadding, false_and, if_false] at h
    match ns with
    | [] =>
      cases h
      obtain rfl : pads = 0 := hpads.resolve_right (by simp)
      exact ⟨0, Nat.zero_le _, heq⟩
    | [_] => cases h
    | [m, n] =>
      obtain ⟨hm, hns⟩ := List.forall_mem_cons.mp hns
      have hn := hns n List.mem_cons_self
      obtain ⟨x, y, z, hquantum, hx, hy, -⟩ := exists_quantum_eq hm hn (r := 0) (s := 0)
        (by decide) (by decide)
      simp only at h
      split_ifs at h with hleft
      cases h
      have hlast : x.toNat % 4 * 16 = n := by
        have := y.toNat_lt
        omega
      refine ⟨pads, ?_, by simp [heq, hquantum, symbols, hx, hlast]⟩
      simp only [hquantum, List.take_succ_cons, List.take_zero, List.length_cons, List.length_nil,
        padWidth] at hlength ⊢
      omega
    | [m, n, o] =>
      obtain ⟨hm, hns⟩ := List.forall_mem_cons.mp hns
      obtain ⟨hn, hns⟩ := List.forall_mem_cons.mp hns
      have ho := hns o List.mem_cons_self
      obtain ⟨x, y, z, hquantum, hx, hy, hz, -⟩ := exists_quantum_eq hm hn ho (s := 0) (by decide)
      simp only at h
      split_ifs at h with hleft
      cases h
      have hlast : y.toNat % 16 * 4 = o := by
        have := z.toNat_lt
        omega
      refine ⟨pads, ?_, by simp [heq, hquantum, symbols, hx, hy, hlast]⟩
      simp only [hquantum, List.take_succ_cons, List.take_zero, List.length_cons, List.length_nil,
        padWidth] at hlength ⊢
      omega
    | m :: n :: o :: p :: rest =>
      obtain ⟨hm, hns⟩ := List.forall_mem_cons.mp hns
      obtain ⟨hn, hns⟩ := List.forall_mem_cons.mp hns
      obtain ⟨ho, hns⟩ := List.forall_mem_cons.mp hns
      have hp := hns p List.mem_cons_self
      -- Four symbols leave no place for anything else.
      simp only [List.length_cons] at hlength
      obtain rfl : rest = [] := List.eq_nil_of_length_eq_zero (by omega)
      obtain rfl : pads = 0 := by omega
      obtain ⟨x, y, z, hquantum, hx, hy, hz, hlast⟩ := exists_quantum_eq hm hn ho hp
      cases h
      exact ⟨0, Nat.zero_le _, by simp [heq, hquantum, symbols, hx, hy, hz, hlast]⟩

/-- The bytes that a text is decoded to have the text for their symbols, but for padding that may
be missing. -/
theorem eq_of_quanta {s b : Bytes} {offset : Nat} (h : quanta Dialect.wire offset s = .ok b) :
    ∃ k ≤ padWidth b.length, s = symbols Dialect.wire b ++ List.replicate k pad := by
  fun_induction quanta Dialect.wire offset s generalizing b with
  | case1 offset c d e f g rest ih =>
    cases hc : value Dialect.wire offset c with
    | error e => simp [hc, bind, Except.bind] at h
    | ok m =>
    cases hd : value Dialect.wire (offset + 1) d with
    | error e => simp [hc, hd, bind, Except.bind] at h
    | ok n =>
    cases he : value Dialect.wire (offset + 2) e with
    | error e => simp [hc, hd, he, bind, Except.bind] at h
    | ok o =>
    cases hf : value Dialect.wire (offset + 3) f with
    | error e => simp [hc, hd, he, hf, bind, Except.bind] at h
    | ok p =>
    cases htail : quanta Dialect.wire (offset + 4) (g :: rest) with
    | error e => simp [hc, hd, he, hf, htail, bind, Except.bind] at h
    | ok tail =>
      simp only [hc, hd, he, hf, htail, bind, Except.bind, pure, Except.pure] at h
      cases h
      obtain ⟨hm, rfl⟩ := symbol_of_value hc
      obtain ⟨hn, rfl⟩ := symbol_of_value hd
      obtain ⟨ho, rfl⟩ := symbol_of_value he
      obtain ⟨hp, rfl⟩ := symbol_of_value hf
      obtain ⟨x, y, z, hquantum, hx, hy, hz, hlast⟩ := exists_quantum_eq hm hn ho hp
      obtain ⟨k, hk, heq⟩ := ih htail
      refine ⟨k, ?_, ?_⟩
      · simp only [hquantum, padWidth, List.length_append, List.length_cons,
          List.length_nil] at hk ⊢
        omega
      · rw [heq, hquantum]
        simp [symbols, hx, hy, hz, hlast]
  | case2 offset s hshort =>
    refine eq_of_lastQuantum ?_ h
    match s with
    | [] | [_] | [_, _] | [_, _, _] | [_, _, _, _] => simp
    | c :: d :: e :: f :: g :: rest => exact absurd rfl (hshort c d e f g rest)

/-- **A wire text is the text of the bytes that it is decoded to**, with some of the padding that
completes its last quantum. -/
theorem eq_encode_of_decode {s : String} {b : Bytes} (h : decode s = .ok b) :
    ∃ k ≤ padWidth b.length, s = encode b ++ String.ofList (List.replicate k '=') := by
  have hquanta : quanta Dialect.wire 0 (.ofText s) = .ok b := by
    rw [decode, Dialect.decode] at h
    split at h
    · split_ifs at h
      exact h
    · rename_i hnil
      rw [List.getLast?_eq_none_iff.mp hnil]
      exact h
  obtain ⟨k, hk, heq⟩ := eq_of_quanta hquanta
  exact ⟨k, hk, Bytes.ofText_injective (heq.trans (ofText_encode_append b k).symm)⟩

/-- A text that is decoded fits into whole quanta if its bytes do. -/
theorem utf8ByteSize_le_iff_of_decode {s : String} {b : Bytes} (h : decode s = .ok b) (n : Nat) :
    s.utf8ByteSize ≤ n * 4 ↔ b.length ≤ n * 3 := by
  obtain ⟨k, hk, rfl⟩ := eq_encode_of_decode h
  rw [← Bytes.length_ofText, ofText_encode_append, List.length_append, length_symbols,
    List.length_replicate]
  have hcases : b.length % 3 = 0 ∨ b.length % 3 = 1 ∨ b.length % 3 = 2 := by omega
  rw [padWidth] at hk
  rcases hcases with hrest | hrest | hrest <;> rw [hrest] at hk <;> omega

/-! ### The dialect as a whole -/

/-- The texts of a byte string: its wire text and what becomes of it with some of the padding that
completes its last quantum. -/
def Spells (s : String) (b : Bytes) : Prop :=
  ∃ k ≤ padWidth b.length, s = encode b ++ String.ofList (List.replicate k '=')

/-- A text is decoded to the bytes that it is a text of, and to nothing else. -/
theorem decode_eq_ok_iff {s : String} {b : Bytes} : decode s = .ok b ↔ Spells s b := by
  constructor
  · exact eq_encode_of_decode
  · rintro ⟨k, hk, rfl⟩
    exact decode_encode_append b hk

/-- A text of a fixed number of bytes is decoded exactly if it is the text of that many. -/
theorem decodeExactly?_eq_some_iff {n : Nat} {s : String} {b : Bytes} :
    decodeExactly? n s = some b ↔ b.length = n ∧ Spells s b := by
  rw [← decode_eq_ok_iff, decodeExactly?]
  cases decode s with
  | error e => simp
  | ok b' =>
    simp only [Except.ok.injEq]
    split_ifs with hlength
    · rw [Option.some_inj]
      exact ⟨fun h => ⟨h ▸ hlength, h⟩, And.right⟩
    · exact ⟨nofun, fun ⟨hb, heq⟩ => absurd (heq ▸ hb) hlength⟩

/-- The symbols are the letters and digits of ASCII, the hyphen and the underscore. -/
theorem isSymbol_of_mem_encode {b : Bytes} {c : Char} (hc : c ∈ (encode b).toList) :
    c.isAlphanum ∨ c = '-' ∨ c = '_' := by
  have hall : ∀ m : Fin 64, (Char.ofNat (Dialect.wire.symbol m).toNat).isAlphanum ∨
      Char.ofNat (Dialect.wire.symbol m).toNat = '-' ∨
      Char.ofNat (Dialect.wire.symbol m).toNat = '_' := by decide
  rw [encode, String.toList_ofList] at hc
  obtain ⟨symbol, hsymbol, rfl⟩ := List.mem_map.mp hc
  obtain ⟨n, hn, rfl⟩ := exists_of_mem_symbols hsymbol
  exact hall ⟨n, hn⟩

/-- A text without padding is a text of some bytes only if it is their wire text. -/
theorem Spells.eq_encode {s : String} {b : Bytes} (h : Spells s b) (hpad : '=' ∉ s.toList) :
    s = encode b := by
  obtain ⟨k, -, rfl⟩ := h
  cases k with
  | zero => rw [List.replicate_zero, String.ofList_nil, String.append_empty]
  | succ k => exact absurd (by simp [List.replicate_succ]) hpad

/-- **The wire dialect is exact.** What is encoded is decoded again and written with the symbols
alone; a text is decoded to the bytes that it is a text of and to nothing else, so that no two texts
without padding are decoded to the same bytes; and a fixed number of bytes is asked for exactly
where the text is one of that many. -/
theorem decode_exact (b : Bytes) (s : String) :
    decode (encode b) = .ok b ∧
      (∀ c ∈ (encode b).toList, c.isAlphanum ∨ c = '-' ∨ c = '_') ∧
      (decode s = .ok b ↔
        ∃ k ≤ padWidth b.length, s = encode b ++ String.ofList (List.replicate k '=')) ∧
      (∀ t, '=' ∉ s.toList → '=' ∉ t.toList → decode s = .ok b → decode t = .ok b → s = t) ∧
      ∀ n, decodeExactly? n s = some b ↔ b.length = n ∧
        ∃ k ≤ padWidth b.length, s = encode b ++ String.ofList (List.replicate k '=') := by
  refine ⟨decode_encode b, fun c => isSymbol_of_mem_encode, decode_eq_ok_iff, ?_,
    fun n => decodeExactly?_eq_some_iff⟩
  intro t hs ht hdecode hdecode'
  have hsame := (decode_eq_ok_iff.mp hdecode).eq_encode hs
  have hsame' := (decode_eq_ok_iff.mp hdecode').eq_encode ht
  exact hsame.trans hsame'.symm

/-- Two bytes have three symbols, of which one may be a hyphen and another an underscore. -/
theorem decode_exact_of_two :
    ('_' ∈ (encode [255, 224]).toList ∧ ('_'.isAlphanum ∨ '_' = '-' ∨ '_' = '_')) ∧
      ('=' ∉ "_-A".toList ∧ decode "_-A" = .ok [255, 224] ∧ "_-A" = encode [255, 224]) := by
  obtain ⟨hdecode, hsymbols, -, hunpadded, -⟩ := decode_exact [255, 224] "_-A"
  have hmem : '_' ∈ (encode [255, 224]).toList := by decide
  have hs : '=' ∉ "_-A".toList := by decide
  have ht : '=' ∉ (encode [255, 224]).toList := by decide
  have hdecode' : decode "_-A" = .ok [255, 224] := by decide
  exact ⟨⟨hmem, hsymbols '_' hmem⟩, hs, hdecode', hunpadded _ hs ht hdecode' hdecode⟩

end MeshNode.Base64
