namespace IntentCorrection.Word

def size32 : Nat := 4294967296

def size64 : Nat := 18446744073709551616

def signedEnd64 : Int := 9223372036854775808

end IntentCorrection.Word
