import Mathlib.Logic.Basic

/-!
Mailbox credentials: what the generator may draw, and encryption at rest. The
cipher is the library's; what is relied on is that it reads what it has written.
-/
namespace Emaild

/-- `_PASSWORD_LENGTH` -/
def passwordLength : Nat := 32

/-- What `generate_mailbox_password` may return: it draws until a candidate has
every class of characters. -/
structure GeneratedPassword where
  text : String
  length : text.length = passwordLength := by decide
  alphabet : text.toList.all Char.isAlphanum = true := by decide
  lower : text.toList.any Char.isLower = true := by decide
  upper : text.toList.any Char.isUpper = true := by decide
  digit : text.toList.any Char.isDigit = true := by decide

/-- Encryption draws a fresh initialisation vector each time. -/
structure MailboxCipher where
  encrypt : (vector : Nat) → (plaintext : String) → String
  decrypt : (ciphertext : String) → Option String
  decrypt_encrypt : ∀ vector plaintext, decrypt (encrypt vector plaintext) = some plaintext

end Emaild
