namespace WalletBridge.Chain

def bitcoin : String := "BITCOIN"
def bitcoinCash : String := "BITCOINCASH"
def litecoin : String := "LITECOIN"
def tron : String := "TRON"

def bitcoinForks : List String := [bitcoin, bitcoinCash, litecoin]
def trons : List String := [tron]

end WalletBridge.Chain
