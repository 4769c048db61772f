set_option autoImplicit false

namespace Envelope.Aad

def ofConfigField (field : String) : String :=
  "field:" ++ field

def ofDocumentField (tenant path version : String) : String :=
  "tenant:" ++ tenant ++ "|path:" ++ path ++ "|enc:" ++ version

def ofWrappedDek : String :=
  "dek-wrap:v1"

end Envelope.Aad
