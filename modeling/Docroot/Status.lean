import Docroot.Text.Numeral

/-!
Status codes of replies and their reason phrases.
-/

namespace Docroot.Status

def phrase : Nat → Text
  | 200 => "OK".toList
  | 204 => "No Content".toList
  | 206 => "Partial Content".toList
  | 302 => "Found".toList
  | 304 => "Not Modified".toList
  | 400 => "Bad Request".toList
  | 403 => "Forbidden".toList
  | 404 => "Not Found".toList
  | 405 => "Method Not Allowed".toList
  | 412 => "Precondition Failed".toList
  | 416 => "Range Not Satisfiable".toList
  | 500 => "Internal Server Error".toList
  | _ => []

def line (code : Nat) : Text := Text.decimal code ++ ' ' :: phrase code

end Docroot.Status
