import Molten.Text.Format

namespace Molten.Text.Inet

/-! IPv4 addresses, their blocks, and their texts. -/

/-- `struct in_addr`, in network order. -/
structure InAddr where
  first : UInt8
  second : UInt8
  third : UInt8
  fourth : UInt8
  deriving DecidableEq, Repr

namespace InAddr

def value (addr : InAddr) : Nat :=
  ((addr.first.toNat * 256 + addr.second.toNat) * 256 + addr.third.toNat) * 256
    + addr.fourth.toNat

/-- The address agrees with `base` in its first `bits` bits, as in
`base/bits`. -/
def Within (addr base : InAddr) (bits : Nat) : Prop :=
  addr.value / 2 ^ (32 - bits) = base.value / 2 ^ (32 - bits)

instance (addr base : InAddr) (bits : Nat) :
    Decidable (addr.Within base bits) :=
  inferInstanceAs (Decidable (_ = _))

theorem within_eight {base addr : InAddr} :
    addr.Within base 8 ↔ addr.first = base.first := by
  rw [Within, value, value, ← UInt8.toNat_inj]
  have := addr.second.toNat_lt
  have := addr.third.toNat_lt
  have := addr.fourth.toNat_lt
  have := base.second.toNat_lt
  have := base.third.toNat_lt
  have := base.fourth.toNat_lt
  omega

theorem within_sixteen {base addr : InAddr} :
    addr.Within base 16 ↔
      addr.first = base.first ∧ addr.second = base.second := by
  rw [Within, value, value, ← UInt8.toNat_inj, ← UInt8.toNat_inj]
  have := addr.second.toNat_lt
  have := addr.third.toNat_lt
  have := addr.fourth.toNat_lt
  have := base.second.toNat_lt
  have := base.third.toNat_lt
  have := base.fourth.toNat_lt
  omega

end InAddr

/-! Texts of bytes. -/

def dot : UInt8 := 46

def octet (byte : UInt8) : Block := Format.decimal byte.toNat

theorem dot_notMem_octet (byte : UInt8) : dot ∉ octet byte :=
  Format.notMem_decimal (by decide) byte.toNat

theorem length_octet_le (byte : UInt8) : (octet byte).length ≤ 3 := by
  have bound := byte.toNat_lt
  rw [octet, Format.decimal, List.length_map,
    Nat.length_toDigits_le_iff (by decide) (by decide)]
  omega

theorem number_decimal : ∀ value < 256,
    Format.number (Format.decimal value) = value := by
  decide +kernel

theorem octet_injective : Function.Injective octet := by
  intro byte other same
  have read := congrArg Format.number same
  rw [octet, octet, number_decimal _ byte.toNat_lt,
    number_decimal _ other.toNat_lt] at read
  exact UInt8.toNat_inj.mp read

theorem append_stop_inj {stop : UInt8} {text other rest behind : Block}
    (absent : stop ∉ text) (absent' : stop ∉ other)
    (same : text ++ stop :: rest = other ++ stop :: behind) :
    text = other ∧ rest = behind := by
  have first := congrArg (List.takeWhile (· != stop)) same
  rw [Block.takeWhile_append_stop absent,
    Block.takeWhile_append_stop absent'] at first
  subst first
  exact ⟨rfl, (List.cons.inj (List.append_cancel_left same)).2⟩

theorem prefix_append_stop_iff {stop : UInt8} {start text rest : Block}
    (absent : stop ∉ start) :
    start <+: text ++ stop :: rest ↔ start <+: text := by
  constructor
  · intro starts
    have stopped : text ++ [stop] <+: text ++ stop :: rest :=
      ⟨rest, List.append_assoc ..⟩
    rcases List.prefix_or_prefix_of_prefix starts stopped with within | within
    · rcases List.prefix_concat_iff.mp within with whole | within
      · exact absurd (whole ▸ List.mem_append_right text (.head [])) absent
      · exact within
    · have present := within.subset (List.mem_append_right text (.head []))
      exact absurd present absent
  · intro starts
    exact starts.trans (List.prefix_append _ _)

/-! `inet_ntop(AF_INET)` -/

def ntop (addr : InAddr) : Block :=
  octet addr.first ++ dot :: (octet addr.second ++ dot ::
    (octet addr.third ++ dot :: octet addr.fourth))

example : ntop ⟨192, 168, 0, 10⟩ = Block.ofString "192.168.0.10" := by decide

theorem ntop_injective : Function.Injective ntop := by
  intro addr other same
  obtain ⟨first, same⟩ := append_stop_inj (dot_notMem_octet _)
    (dot_notMem_octet _) same
  obtain ⟨second, same⟩ := append_stop_inj (dot_notMem_octet _)
    (dot_notMem_octet _) same
  obtain ⟨third, fourth⟩ := append_stop_inj (dot_notMem_octet _)
    (dot_notMem_octet _) same
  cases addr
  cases other
  rw [InAddr.mk.injEq]
  exact ⟨octet_injective first, octet_injective second,
    octet_injective third, octet_injective fourth⟩

theorem length_ntop_lt (addr : InAddr) : (ntop addr).length < 16 := by
  have first := length_octet_le addr.first
  have second := length_octet_le addr.second
  have third := length_octet_le addr.third
  have fourth := length_octet_le addr.fourth
  simp only [ntop, List.length_append, List.length_cons]
  omega

theorem mem_ntop {addr : InAddr} {byte : UInt8} (member : byte ∈ ntop addr) :
    Block.isDigit byte = true ∨ byte = dot := by
  simp only [ntop, List.mem_append, List.mem_cons] at member
  rcases member with member | member | member | member | member | member | member
  · exact .inl (Format.isDigit_of_mem_decimal member)
  · exact .inr member
  · exact .inl (Format.isDigit_of_mem_decimal member)
  · exact .inr member
  · exact .inl (Format.isDigit_of_mem_decimal member)
  · exact .inr member
  · exact .inl (Format.isDigit_of_mem_decimal member)

theorem zero_notMem_ntop (addr : InAddr) : 0 ∉ ntop addr := by
  intro member
  rcases mem_ntop member with digit | isDot
  · exact absurd digit (by decide)
  · exact absurd isDot (by decide)

end Molten.Text.Inet
