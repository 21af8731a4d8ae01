/-!
# Columns

Texts padded with spaces to a width that counts characters. A longer text is left whole.
-/

namespace GatewayLedger.Text

def spaces (n : Nat) : String := String.ofList (List.replicate n ' ')

def padLeft (width : Nat) (text : String) : String := spaces (width - text.length) ++ text

def padRight (width : Nat) (text : String) : String := text ++ spaces (width - text.length)

def ruler (mark : Char) (width : Nat) : String := String.ofList (List.replicate width mark)

end GatewayLedger.Text
