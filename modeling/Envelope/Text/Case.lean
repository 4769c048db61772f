set_option autoImplicit false

namespace Envelope.Text

def lowerAscii (text : String) : List Char :=
  text.toList.map Char.toLower

def sameIgnoringCase (a b : String) : Bool :=
  lowerAscii a = lowerAscii b

end Envelope.Text
