import Pipework.Digest.Md5
import Pipework.Digest.Sha256

/-!
# Texts of digests

The text of a SHA-256 digest has 64 lower-case hexadecimal digits, that of an MD5 digest 32.
-/

namespace Pipework.Digest

/-- A lower-case hexadecimal digit. -/
def IsHexDigit (c : Char) : Prop := ∃ n < 16, c = Nat.digitChar n

theorem IsHexDigit.ne_brace {c : Char} (h : IsHexDigit c) : c ≠ '\x7d' := by
  obtain ⟨n, -, rfl⟩ := h
  simp

theorem isHexDigit_of_mem_hex {bytes : List UInt8} {c : Char} (h : c ∈ (hex bytes).toList) :
    IsHexDigit c := by
  rw [hex, String.toList_ofList, List.mem_flatMap] at h
  obtain ⟨b, -, hc⟩ := h
  have hb := b.toNat_lt
  rcases List.mem_cons.1 hc with rfl | hc
  · exact ⟨b.toNat / 16, by omega, rfl⟩
  · rw [List.mem_singleton.1 hc]
    exact ⟨b.toNat % 16, by omega, rfl⟩

theorem length_hex (bytes : List UInt8) : (hex bytes).length = 2 * bytes.length := by
  rw [hex, String.length_ofList]
  induction bytes with
  | nil => rfl
  | cons b bytes ih =>
    rw [List.flatMap_cons, List.length_append, ih, List.length_cons]
    simp only [List.length_cons, List.length_nil]
    omega

theorem ByteOrder.length_bytes (order : ByteOrder) (n value : Nat) :
    (order.bytes n value).length = n := by
  cases order <;> simp [ByteOrder.bytes]

theorem length_sha256 (message : List UInt8) : (sha256 message).length = 32 := by
  simp [sha256, ByteOrder.length_bytes]

theorem length_sha256Hex (message : String) : (sha256Hex message).length = 64 := by
  rw [sha256Hex, length_hex, length_sha256]

theorem length_md5Hex (message : String) : (md5Hex message).length = 32 := by
  simp [md5Hex, length_hex, md5, ByteOrder.length_bytes]

theorem isHexDigit_of_mem_sha256Hex {message : String} {c : Char}
    (h : c ∈ (sha256Hex message).toList) : IsHexDigit c := isHexDigit_of_mem_hex h

end Pipework.Digest
