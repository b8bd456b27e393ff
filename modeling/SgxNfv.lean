import SgxNfv.Lib.While
import SgxNfv.Lib.CInt
import SgxNfv.Lib.Packing
import SgxNfv.Processor.Lemmas.Scan
import SgxNfv.Processor.Lemmas.Search
import SgxNfv.Processor.Lemmas.SharedScan
import SgxNfv.Click.Impl
import SgxNfv.Click.Lemmas
import SgxNfv.Lib.CString.Print
import SgxNfv.Server.Lemmas.Protocol
import SgxNfv.Server.Lemmas.Loop
import SgxNfv.Verifier.Lemmas
import SgxNfv.NetworkRa.Lemmas
import SgxNfv.Enclave.Lemmas
import SgxNfv.Sha256.Lemmas.Digest
import SgxNfv.Sha256.Lemmas.Shared
import SgxNfv.Click.Lemmas.Sha256
import SgxNfv.Lib.Runs
import SgxNfv.ServiceProvider.Lemmas.Interleaving
import SgxNfv.Attestation.Lemmas.Result
import SgxNfv.LaunchToken.Lemmas
import SgxNfv.Benchmark.Lemmas
import SgxNfv.CryptoWrapper.Lemmas
