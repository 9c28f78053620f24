/-
# IP addresses and their textual form

The address types of the standard library and the reader behind
`str::parse::<IpAddr>`: four decimal octets without leading zeros, or up to eight
groups of hexadecimal digits with at most one `::` and an optional dotted tail.

Every character of a text that reads as an address is a hexadecimal digit, a dot or a
colon (`isAddressChar_of_parse`), so such a text holds neither commas nor whitespace.
-/
import KaimanWebhooks.Text
import Mathlib.Data.BitVec

/-- An address of either family. -/
inductive IpAddr : Type where
  | v4 (addr : BitVec 32)
  | v6 (addr : BitVec 128)
  deriving DecidableEq

namespace IpAddr

/-! ## Numbers -/

/-- `char::to_digit`. -/
def toDigit (radix : ℕ) (c : Char) : Option ℕ :=
  let value :=
    if '0' ≤ c ∧ c ≤ '9' then some (c.toNat - 48)
    else if 'a' ≤ c ∧ c ≤ 'z' then some (c.toNat - 87)
    else if 'A' ≤ c ∧ c ≤ 'Z' then some (c.toNat - 55)
    else none
  value.filter (· < radix)

/-- The digits at the front of a text: their value, their count and the rest. -/
def readDigits (radix : ℕ) : ℕ → ℕ → List Char → ℕ × ℕ × List Char
  | acc, count, [] => (acc, count, [])
  | acc, count, c :: cs =>
      match toDigit radix c with
      | some d => readDigits radix (radix * acc + d) (count + 1) cs
      | none => (acc, count, c :: cs)

/-- A number of at most `maxDigits` digits below `bound`. -/
def readNumber (radix maxDigits bound : ℕ) (allowZeroPrefix : Bool) (cs : List Char) :
    Option (ℕ × List Char) :=
  let (value, count, rest) := readDigits radix 0 0 cs
  if count = 0 ∨ maxDigits < count then none
  else if !allowZeroPrefix ∧ cs.head? = some '0' ∧ 1 < count then none
  else if value < bound then some (value, rest)
  else none

/-! ## Addresses -/

/-- One given character. -/
def readChar (c : Char) : List Char → Option (List Char)
  | [] => none
  | d :: cs => if d = c then some cs else none

/-- The separator, except before the first item. -/
def readSeparator (sep : Char) (index : ℕ) (cs : List Char) : Option (List Char) :=
  if index = 0 then some cs else readChar sep cs

/-- Octets `index` to `3` of a dotted address, read onto `acc`. -/
def readOctets : ℕ → ℕ → ℕ → List Char → Option (ℕ × List Char)
  | 0, _, acc, cs => some (acc, cs)
  | left + 1, index, acc, cs =>
      (readSeparator '.' index cs).bind fun cs =>
        (readNumber 10 3 256 false cs).bind fun p =>
          readOctets left (index + 1) (256 * acc + p.1) p.2

def readIpv4Addr (cs : List Char) : Option (ℕ × List Char) := readOctets 4 0 0 cs

/-- A run of groups: a dotted tail is tried first while two groups are left.  The result
says whether such a tail was read. -/
def readGroups : ℕ → ℕ → List Char → List ℕ × Bool × List Char
  | 0, _, cs => ([], false, cs)
  | left + 1, index, cs =>
      match (if 0 < left then (readSeparator ':' index cs).bind readIpv4Addr else none) with
      | some (addr, rest) => ([addr / 65536, addr % 65536], true, rest)
      | none =>
          match (readSeparator ':' index cs).bind (readNumber 16 4 65536 true) with
          | some (group, rest) =>
              let tail := readGroups left (index + 1) rest
              (group :: tail.1, tail.2)
          | none => ([], false, cs)

/-- The address whose groups these are, most significant first. -/
def ofGroups (groups : List ℕ) : BitVec 128 :=
  BitVec.ofNat 128 (groups.foldl (fun acc g => 65536 * acc + g) 0)

def readIpv6Addr (cs : List Char) : Option (BitVec 128 × List Char) :=
  let (head, headIpv4, rest) := readGroups 8 0 cs
  if head.length = 8 then some (ofGroups head, rest)
  else if headIpv4 then none
  else
    (readChar ':' rest).bind fun rest =>
      (readChar ':' rest).bind fun rest =>
        let (tail, _, rest) := readGroups (8 - (head.length + 1)) 0 rest
        some (ofGroups (head ++ List.replicate (8 - head.length - tail.length) 0 ++ tail), rest)

def readIpAddr (cs : List Char) : Option (IpAddr × List Char) :=
  match readIpv4Addr cs with
  | some (addr, rest) => some (.v4 (BitVec.ofNat 32 addr), rest)
  | none => (readIpv6Addr cs).map fun p => (.v6 p.1, p.2)

/-- `str::parse::<IpAddr>`: the whole text has to be one address. -/
def parse (cs : List Char) : Option IpAddr :=
  match readIpAddr cs with
  | some (addr, []) => some addr
  | _ => none

/-! ## The characters of an address -/

/-- A hexadecimal digit, a dot or a colon. -/
def isAddressChar (c : Char) : Bool :=
  (toDigit 16 c).isSome || c = '.' || c = ':'

/-- The reader took `used` from the front and left `rest`. -/
def Took (cs rest : List Char) : Prop :=
  ∃ used, cs = used ++ rest ∧ ∀ c ∈ used, isAddressChar c = true

theorem Took.refl (cs : List Char) : Took cs cs := ⟨[], rfl, by simp⟩

theorem Took.trans {a b c : List Char} (h₁ : Took a b) (h₂ : Took b c) : Took a c := by
  obtain ⟨u, rfl, hu⟩ := h₁
  obtain ⟨v, rfl, hv⟩ := h₂
  refine ⟨u ++ v, by simp, fun x hx => ?_⟩
  exact (List.mem_append.mp hx).elim (hu x) (hv x)

theorem isSome_toDigit_mono {radix : ℕ} (hradix : radix ≤ 16) {c : Char} {d : ℕ}
    (h : toDigit radix c = some d) : isAddressChar c = true := by
  obtain ⟨hv, hd⟩ := Option.filter_eq_some_iff.mp h
  have h16 : toDigit 16 c = some d :=
    Option.filter_eq_some_iff.mpr ⟨hv, by simp only [decide_eq_true_eq] at hd ⊢; omega⟩
  simp [isAddressChar, h16]

theorem took_readDigits {radix : ℕ} (hradix : radix ≤ 16) (acc count : ℕ) (cs : List Char) :
    Took cs (readDigits radix acc count cs).2.2 := by
  induction cs generalizing acc count with
  | nil => exact Took.refl []
  | cons c cs ih =>
      rw [readDigits]
      split
      · rename_i d hd
        have hone : Took (c :: cs) cs := by
          refine ⟨[c], rfl, fun x hx => ?_⟩
          rw [List.mem_singleton.mp hx]
          exact isSome_toDigit_mono hradix hd
        exact hone.trans (ih _ _)
      · exact Took.refl _

theorem took_readNumber {radix maxDigits bound n : ℕ} {allow : Bool} (hradix : radix ≤ 16)
    {cs rest : List Char} (h : readNumber radix maxDigits bound allow cs = some (n, rest)) :
    Took cs rest := by
  simp only [readNumber] at h
  split_ifs at h
  simp only [Option.some.injEq, Prod.mk.injEq] at h
  rw [← h.2]
  exact took_readDigits hradix 0 0 cs

theorem took_readChar {c : Char} (hc : isAddressChar c = true) {cs rest : List Char}
    (h : readChar c cs = some rest) : Took cs rest := by
  cases cs with
  | nil => cases h
  | cons d cs =>
      simp only [readChar] at h
      split at h
      · rename_i hd
        cases h
        refine ⟨[d], rfl, fun x hx => ?_⟩
        rw [List.mem_singleton.mp hx, hd]
        exact hc
      · cases h

theorem took_readSeparator {sep : Char} (hsep : isAddressChar sep = true) {index : ℕ}
    {cs rest : List Char} (h : readSeparator sep index cs = some rest) : Took cs rest := by
  simp only [readSeparator] at h
  split at h
  · cases h
    exact Took.refl cs
  · exact took_readChar hsep h

theorem took_readOctets (left index acc : ℕ) {cs rest : List Char} {n : ℕ}
    (h : readOctets left index acc cs = some (n, rest)) : Took cs rest := by
  induction left generalizing index acc cs with
  | zero =>
      simp only [readOctets, Option.some.injEq, Prod.mk.injEq] at h
      rw [← h.2]
      exact Took.refl cs
  | succ left ih =>
      simp only [readOctets, Option.bind_eq_some_iff] at h
      obtain ⟨cs₁, hsep, ⟨m, cs₂⟩, hnum, hrest⟩ := h
      exact (took_readSeparator (by decide) hsep).trans
        ((took_readNumber (by omega) hnum).trans (ih _ _ hrest))

theorem took_readGroups (left index : ℕ) (cs : List Char) :
    Took cs (readGroups left index cs).2.2 := by
  induction left generalizing index cs with
  | zero => exact Took.refl cs
  | succ left ih =>
      rw [readGroups]
      split
      · rename_i addr rest h
        split at h
        · obtain ⟨cs₁, hsep, haddr⟩ := Option.bind_eq_some_iff.mp h
          exact (took_readSeparator (by decide) hsep).trans (took_readOctets 4 0 0 haddr)
        · cases h
      · split
        · rename_i group rest h
          obtain ⟨cs₁, hsep, hgroup⟩ := Option.bind_eq_some_iff.mp h
          exact ((took_readSeparator (by decide) hsep).trans
            (took_readNumber (by omega) hgroup)).trans (ih _ _)
        · exact Took.refl cs

theorem took_readIpv6Addr {cs rest : List Char} {addr : BitVec 128}
    (h : readIpv6Addr cs = some (addr, rest)) : Took cs rest := by
  have hhead := took_readGroups 8 0 cs
  simp only [readIpv6Addr] at h
  split_ifs at h
  · simp only [Option.some.injEq, Prod.mk.injEq] at h
    rw [← h.2]
    exact hhead
  · simp only [Option.bind_eq_some_iff, Option.some.injEq, Prod.mk.injEq] at h
    obtain ⟨cs₁, h₁, cs₂, h₂, -, rfl⟩ := h
    exact hhead.trans ((took_readChar (by decide) h₁).trans
      ((took_readChar (by decide) h₂).trans (took_readGroups _ _ _)))

/-- **An address is written in digits, dots and colons only.** -/
theorem isAddressChar_of_parse {cs : List Char} {addr : IpAddr} (h : parse cs = some addr) :
    ∀ c ∈ cs, isAddressChar c = true := by
  have htook : Took cs [] := by
    simp only [parse] at h
    split at h
    · rename_i addr' hread
      simp only [readIpAddr] at hread
      split at hread
      · rename_i n rest hv4
        simp only [Option.some.injEq, Prod.mk.injEq] at hread
        obtain ⟨-, rfl⟩ := hread
        exact took_readOctets 4 0 0 hv4
      · obtain ⟨⟨addr₆, rest⟩, hv6, hp⟩ := Option.map_eq_some_iff.mp hread
        obtain ⟨-, rfl⟩ := Prod.mk.inj hp
        exact took_readIpv6Addr hv6
    · cases h
  obtain ⟨used, hused, hall⟩ := htook
  rw [List.append_nil] at hused
  rw [hused]
  exact hall

theorem isAddressChar_bounds {c : Char} (h : isAddressChar c = true) :
    46 ≤ c.toNat ∧ c.toNat ≤ 122 := by
  simp only [isAddressChar, Bool.or_eq_true, decide_eq_true_eq] at h
  rcases h with (h | rfl) | rfl
  · obtain ⟨d, hd⟩ := Option.isSome_iff_exists.mp h
    obtain ⟨hv, -⟩ := Option.filter_eq_some_iff.mp hd
    split_ifs at hv with h₁ h₂ h₃
    · simp only [Char.le_def, UInt32.le_iff_toNat_le, Char.toNat] at h₁ ⊢
      have h0 : '0'.val.toNat = 48 := rfl
      have h9 : '9'.val.toNat = 57 := rfl
      omega
    · simp only [Char.le_def, UInt32.le_iff_toNat_le, Char.toNat] at h₂ ⊢
      have ha : 'a'.val.toNat = 97 := rfl
      have hz : 'z'.val.toNat = 122 := rfl
      omega
    · simp only [Char.le_def, UInt32.le_iff_toNat_le, Char.toNat] at h₃ ⊢
      have ha : 'A'.val.toNat = 65 := rfl
      have hz : 'Z'.val.toNat = 90 := rfl
      omega
  · decide
  · decide

theorem isWhitespace_eq_false_of_isAddressChar {c : Char} (h : isAddressChar c = true) :
    Text.isWhitespace c = false := by
  have hc := isAddressChar_bounds h
  simp only [Text.isWhitespace, Bool.or_eq_false_iff, Bool.and_eq_false_iff,
    decide_eq_false_iff_not,
    beq_eq_false_iff_ne]
  omega

/-- Trimming the textual form of an address changes nothing. -/
theorem trim_of_parse {cs : List Char} {addr : IpAddr} (h : parse cs = some addr) :
    Text.trim cs = cs := by
  have hall := isAddressChar_of_parse h
  refine Text.trim_eq_self (fun c hc => ?_) (fun c hc => ?_)
  · exact isWhitespace_eq_false_of_isAddressChar (hall c (List.mem_of_mem_head? hc))
  · exact isWhitespace_eq_false_of_isAddressChar (hall c (List.mem_of_mem_getLast? hc))

example : parse " 192.168.1.1".toList = none ∧
    parse (Text.trim " 192.168.1.1".toList) = some (.v4 0xC0A80101#32) := by
  decide

/-! ## The length of an address -/

theorem length_readDigits (radix acc count : ℕ) (cs : List Char) :
    (readDigits radix acc count cs).2.2.length + (readDigits radix acc count cs).2.1 =
      cs.length + count := by
  induction cs generalizing acc count with
  | nil => rfl
  | cons c cs ih =>
      rw [readDigits]
      split
      · rw [ih, List.length_cons]
        omega
      · rfl

theorem length_le_of_readNumber {radix maxDigits bound n : ℕ} {allow : Bool} {cs rest : List Char}
    (h : readNumber radix maxDigits bound allow cs = some (n, rest)) :
    cs.length ≤ rest.length + maxDigits := by
  have hlen := length_readDigits radix 0 0 cs
  rcases hread : readDigits radix 0 0 cs with ⟨value, count, rest'⟩
  rw [hread] at hlen
  simp only [readNumber, hread] at h
  split_ifs at h with hcount hzero hbound
  obtain ⟨-, rfl⟩ := Prod.mk.inj (Option.some.inj h)
  rw [not_or] at hcount
  dsimp only at hlen
  omega

theorem length_eq_of_readChar {c : Char} {cs rest : List Char} (h : readChar c cs = some rest) :
    cs.length = rest.length + 1 := by
  cases cs with
  | nil => cases h
  | cons d cs =>
      simp only [readChar] at h
      split at h
      · cases h
        rfl
      · cases h

theorem length_eq_of_readSeparator {sep : Char} {index : ℕ} {cs rest : List Char}
    (h : readSeparator sep index cs = some rest) :
    cs.length = rest.length + if index = 0 then 0 else 1 := by
  simp only [readSeparator] at h
  split_ifs at h with hindex
  · cases h
    rw [if_pos hindex, Nat.add_zero]
  · rw [if_neg hindex]
    exact length_eq_of_readChar h

/-- Octets after the first: a dot and three digits each. -/
theorem length_le_of_readOctets (left index acc : ℕ) {cs rest : List Char} {n : ℕ}
    (h : readOctets left (index + 1) acc cs = some (n, rest)) :
    cs.length ≤ rest.length + 4 * left := by
  induction left generalizing index acc cs with
  | zero =>
      simp only [readOctets, Option.some.injEq, Prod.mk.injEq] at h
      rw [h.2]
      omega
  | succ left ih =>
      simp only [readOctets, Option.bind_eq_some_iff] at h
      obtain ⟨cs₁, hsep, ⟨m, cs₂⟩, hnum, hrest⟩ := h
      have h₁ : cs.length = cs₁.length + 1 := length_eq_of_readSeparator hsep
      have h₂ : cs₁.length ≤ cs₂.length + 3 := length_le_of_readNumber hnum
      have h₃ : cs₂.length ≤ rest.length + 4 * left := ih _ _ hrest
      omega

theorem length_le_of_readIpv4Addr {cs rest : List Char} {n : ℕ}
    (h : readIpv4Addr cs = some (n, rest)) : cs.length ≤ rest.length + 15 := by
  rw [readIpv4Addr, show 4 = 3 + 1 from rfl, readOctets, Option.bind_eq_some_iff] at h
  obtain ⟨cs₁, hsep, hoctets⟩ := h
  obtain ⟨⟨m, cs₂⟩, hnum, hrest⟩ := Option.bind_eq_some_iff.mp hoctets
  have h₁ : cs.length = cs₁.length + 0 := length_eq_of_readSeparator hsep
  have h₂ : cs₁.length ≤ cs₂.length + 3 := length_le_of_readNumber hnum
  have h₃ : cs₂.length ≤ rest.length + 4 * 3 := length_le_of_readOctets 3 0 _ hrest
  omega

/-- What a run of groups takes at most: a colon and four digits for each, no colon before
the first, and six characters more when the run ends in a dotted tail. -/
theorem length_le_readGroups (left index : ℕ) (cs : List Char) :
    (readGroups left index cs).1.length ≤ left ∧
    cs.length + (if index = 0 ∧ (readGroups left index cs).1 ≠ [] then 1 else 0) ≤
      (readGroups left index cs).2.2.length + 5 * (readGroups left index cs).1.length +
        if (readGroups left index cs).2.1 then 6 else 0 := by
  induction left generalizing index cs with
  | zero => simp [readGroups]
  | succ left ih =>
      rw [readGroups]
      split
      · rename_i addr rest h
        split at h
        · rename_i hleft
          obtain ⟨cs₁, hsep, haddr⟩ := Option.bind_eq_some_iff.mp h
          have h₁ := length_eq_of_readSeparator hsep
          have h₂ := length_le_of_readIpv4Addr haddr
          by_cases hindex : index = 0 <;> simp [hindex] at h₁ ⊢ <;> omega
        · cases h
      · split
        · rename_i group rest h
          obtain ⟨cs₁, hsep, hgroup⟩ := Option.bind_eq_some_iff.mp h
          have h₁ := length_eq_of_readSeparator hsep
          have h₂ := length_le_of_readNumber hgroup
          obtain ⟨hcount, htail⟩ := ih (index + 1) rest
          rw [if_neg (by omega)] at htail
          simp only [List.length_cons, ne_eq, reduceCtorEq, not_false_eq_true, and_true]
          split_ifs at h₁ htail ⊢ <;> omega
        · simp

theorem length_le_of_readIpv6Addr {cs rest : List Char} {addr : BitVec 128}
    (h : readIpv6Addr cs = some (addr, rest)) : cs.length ≤ rest.length + 45 := by
  obtain ⟨hheadCount, hhead⟩ := length_le_readGroups 8 0 cs
  rcases hgroups : readGroups 8 0 cs with ⟨head, headIpv4, cs₀⟩
  rw [hgroups] at hheadCount hhead
  simp only [readIpv6Addr, hgroups] at h
  dsimp only at hheadCount hhead
  split_ifs at h with hfull hdotted
  · obtain ⟨-, rfl⟩ := Prod.mk.inj (Option.some.inj h)
    have hne : head ≠ [] := by
      rintro rfl
      cases hfull
    rw [if_pos ⟨rfl, hne⟩] at hhead
    cases headIpv4 <;> simp at hhead <;> omega
  · obtain ⟨cs₁, h₁, h⟩ := Option.bind_eq_some_iff.mp h
    obtain ⟨cs₂, h₂, h⟩ := Option.bind_eq_some_iff.mp h
    obtain ⟨htailCount, htail⟩ := length_le_readGroups (8 - (head.length + 1)) 0 cs₂
    rcases htailGroups : readGroups (8 - (head.length + 1)) 0 cs₂ with ⟨tail, tailIpv4, rest'⟩
    rw [htailGroups] at h htailCount htail
    dsimp only at h htailCount htail
    obtain ⟨-, rfl⟩ := Prod.mk.inj (Option.some.inj h)
    have hcolon₁ := length_eq_of_readChar h₁
    have hcolon₂ := length_eq_of_readChar h₂
    split_ifs at hhead htail <;> omega

theorem length_le_of_parse {cs : List Char} {addr : IpAddr} (h : parse cs = some addr) :
    cs.length ≤ 45 := by
  simp only [parse] at h
  split at h
  · rename_i addr' hread
    simp only [readIpAddr] at hread
    split at hread
    · rename_i n rest hv4
      obtain ⟨-, rfl⟩ := Prod.mk.inj (Option.some.inj hread)
      have hlen := length_le_of_readIpv4Addr hv4
      simp at hlen
      omega
    · obtain ⟨⟨addr₆, rest⟩, hv6, hp⟩ := Option.map_eq_some_iff.mp hread
      obtain ⟨-, rfl⟩ := Prod.mk.inj hp
      simpa using length_le_of_readIpv6Addr hv6
  · cases h

/-- **An address takes at most 45 bytes.** -/
theorem byteLength_le_of_parse {cs : List Char} {addr : IpAddr} (h : parse cs = some addr) :
    Text.byteLength cs ≤ 45 := by
  have hbytes : ∀ l : List Char, (∀ c ∈ l, isAddressChar c = true) →
      Text.byteLength l = l.length := by
    intro l hl
    induction l with
    | nil => rfl
    | cons c l ih =>
        have hc := isAddressChar_bounds (hl c List.mem_cons_self)
        have hsize : c.utf8Size = 1 := Char.utf8Size_eq_one_iff.mpr (by
          rw [UInt32.le_iff_toNat_le]
          exact hc.2.trans (by decide))
        rw [Text.byteLength_cons, hsize, ih fun c hc => hl c (List.mem_cons_of_mem _ hc),
          List.length_cons, Nat.add_comm]
  rw [hbytes cs (isAddressChar_of_parse h)]
  exact length_le_of_parse h

example : Text.byteLength "2001:0db8:0000:0000:0000:0000:255.255.255.255".toList = 45 ∧
    parse "2001:0db8:0000:0000:0000:0000:255.255.255.255".toList =
      some (.v6 0x20010DB80000000000000000FFFFFFFF#128) := by
  decide +kernel

end IpAddr
