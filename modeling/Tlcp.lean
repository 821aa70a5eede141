import Tlcp.Ntls.Sm2dhe
import Tlcp.Tls13.Agreement
import Tlcp.Tls13.PostHandshake
import Tlcp.Tls13.Extensions
import Tlcp.Ntls.Renegotiate
import Tlcp.Ntls.Bodies
import Tlcp.Ntls.Writer
import Tlcp.Ntls.PeerChains
import Tlcp.Ntls.ClientCerts
import Tlcp.Ntls.ChooseCipher
import Tlcp.Ntls.Driver
import Tlcp.Ntls.Pms
import Tlcp.Tls13.ShareOrder
import Tlcp.Tls13.DualSwitch
import Tlcp.Provider.Consistency
import Tlcp.Ntls.CipherList
import Tlcp.Sphincs.TreeHash
import Tlcp.Pqmagic.Challenge
import Tlcp.AigisEnc.Polyvec
