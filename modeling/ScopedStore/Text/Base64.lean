import ScopedStore.Text.Utf8

/-!
Base 64: three bytes as four letters, the last group filled up with equals signs.
-/

namespace ScopedStore.Text

private def base64Alphabet : List Char :=
  "ABCDEFGHIJKLMNOPQRSTUVWXYZabcdefghijklmnopqrstuvwxyz0123456789+/".toList

private def base64Letter (n : Nat) : Char := base64Alphabet[n % 64]?.getD 'A'

/-- The letters of a group of three bytes. -/
private def base64Group (a b c : UInt8) : List Char :=
  let n := (a.toNat * 256 + b.toNat) * 256 + c.toNat
  [base64Letter (n >>> 18), base64Letter (n >>> 12), base64Letter (n >>> 6), base64Letter n]

def base64 : Bytes → List Char
  | [] => []
  | [a] => (base64Group a 0 0).take 2 ++ ['=', '=']
  | [a, b] => (base64Group a b 0).take 3 ++ ['=']
  | a :: b :: c :: rest => base64Group a b c ++ base64 rest

end ScopedStore.Text
